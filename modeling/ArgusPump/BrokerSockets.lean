import ArgusPump.Broker

/-!
# The broker's descriptors

A socket of `main/argus_mqtt_broker.c` from `accept` to `close`: the accept loop of the
server task, the records, the client tasks and disconnects of `Broker`, and
`argus_mqtt_broker_stop` until its sockets are closed.  A descriptor is closed after the
lock is given back, and its number may be the next one `accept` returns.

Left out: the listener, and a start after the stop.
-/

namespace Argus

open Interact

/-- Where the server task is in its accept loop. -/
inductive ServerPhase
  /-- Before it reads the state. -/
  | top
  | waiting
  /-- `accept` has returned; the state is read once more. -/
  | accepted (sock : Int)
  | admitting (sock : Int)
  /-- The record is handed out, `xTaskCreate` has not answered yet. -/
  | creating (i : Fin mqttMaxConnections) (sock : Int)
  | closing (sock : Int)
  | exited
deriving DecidableEq

structure Sockets where
  broker : Broker
  server : ServerPhase
  /-- The state has become STOPPING. -/
  stopping : Bool
  /-- The connection a descriptor is open for; the accepts are numbered. -/
  owner : Int → Option Nat
  accepts : Nat
  /-- The connection a record was handed out for. -/
  connection : Fin mqttMaxConnections → Nat
  /-- Taken out of their records by a client task or the stop, not closed yet. -/
  closing : List Int

inductive SocketAct
  /-- The server task reads the state. -/
  | check
  /-- `accept` returns; a negative descriptor is an error. -/
  | accept (sock : Int)
  | records (act : BrokerAct)
  /-- The server task closes a socket it could not hand out. -/
  | serverClose
  | stop
  /-- The stop has found no claim and takes the sockets out of the records. -/
  | retire
  | close (sock : Int)
deriving DecidableEq

namespace Sockets

/-- After `argus_mqtt_broker_start`. -/
def start (nextConnectionId : UInt64) (directory : List MachineEntry) : Sockets :=
  ⟨.start nextConnectionId directory, .top, false, fun _ => none, 0, fun _ => 0, []⟩

/-- The socket of a record the stop takes. -/
def retired (c : MqttClient) : Option Int := if c.inUse ∧ 0 ≤ c.sock then some c.sock else none

def retireSockets (s : Sockets) : Sockets :=
  { s with
    broker := { s.broker with
      clients := fun i =>
        if (retired (s.broker.clients i)).isSome then { s.broker.clients i with sock := -1 }
        else s.broker.clients i }
    closing := s.closing ++ (List.finRange mqttMaxConnections).filterMap fun i =>
      retired (s.broker.clients i) }

/-- A step of the records with what it is to the sockets; `b` are the records after it. -/
def recordsAfter (s : Sockets) (b : Broker) : BrokerAct → Option Sockets
  | .accept sock peerKey receivingInterface sourceProven =>
    if s.server = .admitting sock then
      match (s.broker.allocClient sock peerKey receivingInterface sourceProven).1 with
      | some i =>
        some { s with
          broker := b
          server := .creating i sock
          connection := Function.update s.connection i s.accepts }
      | none => some { s with broker := b, server := .closing sock }
    else none
  | .taskCreated i =>
    match s.server with
    | .creating j _ => if j = i then some { s with broker := b, server := .top } else none
    | _ => none
  | .taskFailed i =>
    match s.server with
    | .creating j sock =>
      -- the descriptor is the task's own copy, whatever the record has by now
      if j = i then some { s with broker := b, server := .closing sock } else none
    | _ => none
  | .close i =>
    let sock := (s.broker.clients i).sock
    some { s with broker := b, closing := if 0 ≤ sock then s.closing ++ [sock] else s.closing }
  | _ => some { s with broker := b }

def next (s : Sockets) : SocketAct → Option Sockets
  | .check =>
    match s.server with
    | .top => some { s with server := if s.stopping then .exited else .waiting }
    | .accepted sock => some { s with server := if s.stopping then .closing sock else .admitting sock }
    | _ => none
  | .accept sock =>
    if s.server ≠ .waiting then none
    else if sock < 0 then some { s with server := .top }
    else if s.owner sock ≠ none then none
    else
      some { s with
        server := .accepted sock
        owner := Function.update s.owner sock (some (s.accepts + 1))
        accepts := s.accepts + 1 }
  | .records act => (s.broker.next act).bind fun b => s.recordsAfter b act
  | .serverClose =>
    match s.server with
    | .closing sock => some { s with server := .top, owner := Function.update s.owner sock none }
    | _ => none
  | .stop => some { s with stopping := true }
  | .retire =>
    if s.stopping ∧ ∀ i, ¬ (s.broker.clients i).shutdownClaimed then some s.retireSockets else none
  | .close sock =>
    if sock ∈ s.closing then
      some { s with closing := s.closing.erase sock, owner := Function.update s.owner sock none }
    else none

end Sockets

def socketStep (s : Sockets) (act : SocketAct) (s' : Sockets) : Prop := s.next act = some s'

/-- The moves on a list of acts, up to the first that has to wait. -/
def socketTrace : Sockets → List SocketAct → List (Move Sockets SocketAct) :=
  traceWhile fun s act => (s.next act).map fun s' => (act, s')

theorem isRun_socketTrace (s : Sockets) (acts : List SocketAct) :
    IsRun socketStep s (socketTrace s acts) := by
  refine isRun_traceWhile (fun s act ev s' h => ?_) s acts
  obtain ⟨t, hnext, heq⟩ := Option.map_eq_some_iff.mp h
  cases heq
  exact hnext

end Argus
