import ArgusPump.Lib.Prog
import ArgusPump.Lib.Run
import ArgusPump.Lib.DualSlot
import ArgusPump.Lib.Fence
import ArgusPump.Lib.Sha256
import ArgusPump.Lib.Ring
import ArgusPump.Lib.TopicFilter
import ArgusPump.StateCore
import ArgusPump.StateCoreRuns
import ArgusPump.StepGen
import ArgusPump.Trajectory
import ArgusPump.Motion
import ArgusPump.MotionSafety
import ArgusPump.NvsConfig
import ArgusPump.NvsCrash
import ArgusPump.NvsCommit
import ArgusPump.NvsDurable
import ArgusPump.NvsLock
import ArgusPump.NvsReset
import ArgusPump.NvsResetSafety
import ArgusPump.SecurityStore
import ArgusPump.ServiceEntry
import ArgusPump.ServiceEntrySafety
import ArgusPump.SecurityAdmin
import ArgusPump.HumanAccounts
import ArgusPump.AdminLockout
import ArgusPump.AdminEscalation
import ArgusPump.SecurityStoreEdits
import ArgusPump.SessionDeadlines
import ArgusPump.SessionTable
import ArgusPump.Lib.Window
import ArgusPump.MachineThrottle
import ArgusPump.KdfBudget
import ArgusPump.SourceLockout
import ArgusPump.ProvenSources
import ArgusPump.LoginService
import ArgusPump.LoginThrottle
import ArgusPump.LoginInflight
import ArgusPump.HumanSessions
import ArgusPump.SecurityCrash
import ArgusPump.MqttDecode
import ArgusPump.MqttSession
import ArgusPump.MqttRuntime
import ArgusPump.MqttRuns
import ArgusPump.MqttTransfer
import ArgusPump.MqttDeadline
import ArgusPump.MqttProfile
import ArgusPump.MqttDuplicates
import ArgusPump.MqttHeartbeat
import ArgusPump.CmdRouter
import ArgusPump.MqttCommand
import ArgusPump.MqttInterleaving
import ArgusPump.MqttSequence
import ArgusPump.MqttSnapshot
import ArgusPump.MqttTopics
import ArgusPump.MqttSubscriptions
import ArgusPump.MqttGate
import ArgusPump.MqttCapability
import ArgusPump.Lib.Slots
import ArgusPump.Lib.Stamp
import ArgusPump.MqttInvalidation
import ArgusPump.Broker
import ArgusPump.BrokerPools
import ArgusPump.BrokerRevocation
import ArgusPump.BrokerSockets
import ArgusPump.BrokerShutdown
import ArgusPump.BrokerDelivery
import ArgusPump.BrokerRetained
import ArgusPump.BrokerLifecycle
import ArgusPump.DirectoryStore
import ArgusPump.HumanRoles
import ArgusPump.Lib.Packed
import ArgusPump.Lib.Optimistic
import ArgusPump.Lib.BitSet
import ArgusPump.SecurityDirectory
import ArgusPump.MachineDirectory
import ArgusPump.DirectoryCrash
import ArgusPump.SecurityDirectoryCrash
import ArgusPump.MachineDirectoryCrash
import ArgusPump.DirectoryCommit
import ArgusPump.Authorization
import ArgusPump.MachineService
import ArgusPump.MachineLifecycle
import ArgusPump.MachineRevalidate
import ArgusPump.AuditRing
import ArgusPump.AuditTrail
import ArgusPump.AuditPages
import ArgusPump.FactoryReset
import ArgusPump.NetManager
import ArgusPump.StateCoreResults
import ArgusPump.DirStability
import ArgusPump.PulseTiming
import ArgusPump.ConfigOverlay
import ArgusPump.MqttConnect
import ArgusPump.RoleDeletion
import ArgusPump.NvsMigration
import ArgusPump.MqttSubscribe
import ArgusPump.MqttNamespace
import ArgusPump.BrokerStore
import ArgusPump.RampRuns
import ArgusPump.JsonExtract
import ArgusPump.MqttGrammar
import ArgusPump.BrowserGrammar
import ArgusPump.RecoveryDetector
import ArgusPump.MutationProtocol
import ArgusPump.AuditLifecycle
import ArgusPump.MigrationConvergence
import ArgusPump.MqttWire
import ArgusPump.HttpCookie
import ArgusPump.HttpAccessRuns
import ArgusPump.BrowserEndpoint
import ArgusPump.KdfWorker
import ArgusPump.MotionRest
import ArgusPump.Plant
import ArgusPump.SealedPlant
import ArgusPump.PlantTasks
import ArgusPump.Reboot
import ArgusPump.ServiceExit
