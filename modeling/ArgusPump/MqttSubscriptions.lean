import ArgusPump.MqttTopics
import ArgusPump.Lib.TopicFilter

/-!
# Subscriptions

A filter passes `argus_mqtt_security_subscription_allowed` of `main/argus_mqtt_security.c`
and `argus_mqtt_topic_matches` of `main/argus_mqtt_broker.c` matches it against the topics
published.  An approved filter names one topic of a read category or all of one.

    filter approved → it is root / category / #, or has no wildcard  (approvedReadFilter_cases)
    … → what it matches lies in the category and in the scope        (subscription_confined)
-/

namespace Argus

open Interact

def readCategories : List Bytes :=
  [txt "metadata", txt "state", txt "status", txt "telemetry", txt "event"]

/-- The leaf goes on with a `/` after the category. -/
def inCategory (leaf category : Bytes) : Bool :=
  category.isPrefixOf leaf && leaf[category.length]? = some slash

/-- `approved_read_filter`. -/
def approvedReadFilter (topics : MqttTopics) (filter : Bytes) : Bool :=
  if ¬ topics.root <+: filter ∨ filter[topics.root.length]? ≠ some slash then false
  else
    let leaf := filter.drop (topics.root.length + 1)
    match readCategories.find? (inCategory leaf) with
    | none => false
    | some category =>
      let remainder := leaf.drop (category.length + 1)
      if remainder = [hashMark] then true
      else !remainder.contains hashMark && !remainder.contains plusMark && !remainder.isEmpty

/-- `argus_mqtt_security_subscription_allowed`. -/
def subscriptionAllowed (topics : MqttTopics) (principal : MachinePrincipal) (filter : Bytes) :
    Bool :=
  principal.permissions &&& permissionViewStatus ≠ 0 && approvedReadFilter topics filter &&
    topicScopeContains principal.topicScope filter

/-- `argus_mqtt_topic_matches`. -/
def topicMatches : Bytes → Bytes → Bool
  | [], topic => topic.isEmpty
  | f :: filter, [] => f = hashMark && filter.isEmpty
  | f :: filter, t :: topic =>
    if f = hashMark then filter.isEmpty
    else if f = plusMark then topicMatches filter ((t :: topic).dropWhile (· ≠ slash))
    else if f ≠ t then false
    else topicMatches filter topic

/-- Matching as MQTT 3.1.1 has it: level by level, and no leading wildcard for the topics
of the server. -/
def mqttMatches (filter topic : Bytes) : Bool :=
  !((filter.head? = some hashMark || filter.head? = some plusMark) && topic.head? = some 0x24) &&
    TopicFilter.Matches slash plusMark hashMark filter topic

/-! ## The matcher on approved filters -/

theorem topicMatches_append {stem : Bytes} (hplus : plusMark ∉ stem) (hhash : hashMark ∉ stem)
    (filter topic : Bytes) :
    topicMatches (stem ++ filter) topic = true ↔
      ∃ rest, topic = stem ++ rest ∧ topicMatches filter rest = true := by
  induction stem generalizing topic with
  | nil => simp
  | cons c stem ih =>
    rw [List.mem_cons, not_or] at hplus hhash
    have hnothash : c ≠ hashMark := Ne.symm hhash.1
    have hnotplus : c ≠ plusMark := Ne.symm hplus.1
    cases topic with
    | nil => simp [topicMatches, hnothash]
    | cons t topic =>
      have hstep : topicMatches (c :: stem ++ filter) (t :: topic) = true ↔
          c = t ∧ topicMatches (stem ++ filter) topic = true := by
        simp [topicMatches, hnothash, hnotplus]
      rw [hstep, ih hplus.2 hhash.2]
      constructor
      · rintro ⟨rfl, rest, rfl, h⟩
        exact ⟨rest, rfl, h⟩
      · rintro ⟨rest, heq, h⟩
        obtain ⟨rfl, rfl⟩ := List.cons.inj heq
        exact ⟨rfl, rest, rfl, h⟩

theorem topicMatches_literal {filter : Bytes} (hplus : plusMark ∉ filter)
    (hhash : hashMark ∉ filter) (topic : Bytes) :
    topicMatches filter topic = true ↔ topic = filter := by
  have happend := topicMatches_append hplus hhash [] topic
  rw [List.append_nil] at happend
  rw [happend]
  simp [topicMatches]

theorem topicMatches_subtree {stem : Bytes} (hplus : plusMark ∉ stem) (hhash : hashMark ∉ stem)
    (topic : Bytes) :
    topicMatches (stem ++ [slash, hashMark]) topic = true ↔ stem ++ [slash] <+: topic := by
  have hall : ∀ rest, topicMatches [hashMark] rest = true := by
    intro rest
    cases rest <;> simp [topicMatches]
  rw [show stem ++ [slash, hashMark] = (stem ++ [slash]) ++ [hashMark] by simp,
    topicMatches_append (by simp [hplus, slash, plusMark]) (by simp [hhash, slash, hashMark])]
  simp only [hall, and_true]
  exact ⟨fun ⟨rest, h⟩ => ⟨rest, h.symm⟩, fun ⟨rest, h⟩ => ⟨rest, h.symm⟩⟩

/-! ## Approved filters -/

/-- `root / category` -/
def MqttTopics.category (topics : MqttTopics) (category : Bytes) : Bytes :=
  makeTopic topics.root category

theorem approvedReadFilter_cases {topics : MqttTopics} {filter : Bytes}
    (h : approvedReadFilter topics filter = true) :
    ∃ category ∈ readCategories, ∃ remainder,
      filter = makeTopic (topics.category category) remainder ∧
        (remainder = [hashMark] ∨
          hashMark ∉ remainder ∧ plusMark ∉ remainder ∧ remainder ≠ []) := by
  unfold approvedReadFilter at h
  split at h
  · cases h
  · next hroot =>
    rw [not_or, not_not, not_not] at hroot
    have hleaf := eq_append_slash hroot.1 hroot.2
    dsimp only at h
    generalize filter.drop (topics.root.length + 1) = leaf at h hleaf
    split at h
    · cases h
    · next category hfind =>
      have hcat := List.find?_some hfind
      unfold inCategory at hcat
      rw [Bool.and_eq_true, List.isPrefixOf_iff_prefix, decide_eq_true_iff] at hcat
      have hrest := eq_append_slash hcat.1 hcat.2
      refine ⟨category, List.mem_of_find?_eq_some hfind, leaf.drop (category.length + 1), ?_, ?_⟩
      · rw [hrest] at hleaf
        unfold MqttTopics.category makeTopic
        rw [List.append_assoc, List.cons_append]
        exact hleaf
      · split at h
        · next hall => exact .inl hall
        · rw [Bool.and_eq_true, Bool.and_eq_true] at h
          right
          simpa [and_assoc] using h

/-! ## Confinement -/

/-- What is neither a `/` nor allowed in an identity is not in the root. -/
theorem notMem_root {clientId unitId : Vector UInt8 33} {topics : MqttTopics}
    (h : topicsBuild clientId unitId = .ok topics) {c : UInt8} (hc : identityChar c = false)
    (hslash : c ≠ slash) : c ∉ topics.root := by
  obtain ⟨hclient, hunit, hroot, -⟩ := topicsBuild_ok h
  have hargus : c ∉ txt "argus/" := by
    intro hmem
    have hletters : ∀ d ∈ txt "argus/", identityChar d = true ∨ d = slash := by
      decide +kernel
    rcases hletters c hmem with hletter | hsep
    · rw [hletter] at hc
      cases hc
    · exact hslash hsep
  unfold topicRoot at hroot
  rw [hroot, List.mem_append, List.mem_append, List.mem_cons]
  rintro ((hmem | hmem) | rfl | hmem)
  · exact hargus hmem
  · exact notMem_cString hclient hc hmem
  · exact hslash rfl
  · exact notMem_cString hunit hc hmem

theorem category_inj {topics : MqttTopics} {c d topic : Bytes}
    (hc : topics.category c ++ [slash] <+: topic) (hd : topics.category d ++ [slash] <+: topic) :
    c ++ [slash] <+: d ++ [slash] ∨ d ++ [slash] <+: c ++ [slash] := by
  have hboth := List.prefix_or_prefix_of_prefix hc hd
  unfold MqttTopics.category makeTopic at hboth
  simpa only [List.append_assoc, List.cons_append, List.prefix_append_right_inj,
    List.cons_prefix_cons, true_and] using hboth

/-- A topic of a read category is not below `command`. -/
theorem not_command {topics : MqttTopics} {category topic : Bytes}
    (hcategory : category ∈ readCategories) (h : topics.category category ++ [slash] <+: topic) :
    ¬ topics.category (txt "command") ++ [slash] <+: topic := by
  have hapart : ∀ c ∈ readCategories, ¬ c ++ [slash] <+: txt "command" ++ [slash] ∧
      ¬ txt "command" ++ [slash] <+: c ++ [slash] := by
    decide
  obtain ⟨hleft, hright⟩ := hapart category hcategory
  intro hcommand
  rcases category_inj h hcommand with hle | hle
  · exact hleft hle
  · exact hright hle

/-- The topics of all actions but the heartbeat are below `command`. -/
theorem action_of_not_command {topics : MqttTopics} {topic : Bytes}
    (hbuilt : ∀ f, topics.topic f = makeTopic topics.root f.leaf)
    (h : ¬ topics.category (txt "command") ++ [slash] <+: topic) :
    topics.classify topic = .none ∨ topics.classify topic = .heartbeat := by
  have hcommand : ∀ f : TopicField, txt "command" ++ [slash] <+: f.leaf →
      (topics.classify topic).field ≠ some f := by
    rintro f ⟨rest, hleaf⟩ hfield
    refine h ⟨rest, ?_⟩
    rw [topics.classify_field hfield, hbuilt, ← hleaf]
    simp [MqttTopics.category, makeTopic]
  cases haction : topics.classify topic with
  | none => exact .inl rfl
  | heartbeat => exact .inr rfl
  | command action =>
    rw [haction] at hcommand
    cases action with
    | setTarget => exact absurd rfl (hcommand .commandSetTarget (by decide))
    | start => exact absurd rfl (hcommand .commandStart (by decide))
    | stop => exact absurd rfl (hcommand .commandStop (by decide))
    | unlock => exact absurd rfl (hcommand .commandUnlock (by decide))
    | eStop => exact absurd rfl (hcommand .commandEStop (by decide))
    | resetEStop => exact absurd rfl (hcommand .commandResetEStop (by decide))
    | recover => exact absurd rfl (hcommand .commandRecover (by decide))
  | requestAuthority =>
    rw [haction] at hcommand
    exact absurd rfl (hcommand .commandRequestAuthority (by decide))
  | releaseAuthority =>
    rw [haction] at hcommand
    exact absurd rfl (hcommand .commandReleaseAuthority (by decide))

/-- A scope without `#` that contains a subtree filter contains the subtree. -/
theorem below_of_subtree {scope stem topic : Bytes} (hhash : hashMark ∉ scope)
    (hfilter : Below scope (stem ++ [slash, hashMark])) (htopic : stem ++ [slash] <+: topic) :
    Below scope topic := by
  rcases hfilter with rfl | hprefix
  · exact absurd (by simp) hhash
  · rw [show stem ++ [slash, hashMark] = (stem ++ [slash]) ++ [hashMark] by simp,
      List.prefix_concat_iff] at hprefix
    rcases hprefix with heq | hbelow
    · have hlast := congrArg List.getLast? heq
      simp [slash, hashMark] at hlast
    · exact .inr (hbelow.trans htopic)

/-- What a filter of a principal with this scope lets through.  Enrolment accepts no scope
with a `#`. -/
structure Confined (topics : MqttTopics) (scope topic : Bytes) : Prop where
  category : ∃ category ∈ readCategories, topics.category category ++ [slash] <+: topic
  notCommand : ¬ topics.category (txt "command") ++ [slash] <+: topic
  action : topics.classify topic = .none ∨ topics.classify topic = .heartbeat
  scope : scope ≠ txt "*" → hashMark ∉ scope → Below scope topic

/-- No leading wildcard, no difference for the topics of the server. -/
theorem mqttMatches_eq {stem rest topic : Bytes} (hplus : plusMark ∉ stem) (hhash : hashMark ∉ stem)
    (hne : stem ≠ []) : mqttMatches (stem ++ rest) topic =
      TopicFilter.Matches slash plusMark hashMark (stem ++ rest) topic := by
  obtain ⟨c, stem, rfl⟩ := List.exists_cons_of_ne_nil hne
  rw [List.mem_cons, not_or] at hplus hhash
  have hnothash : c ≠ hashMark := Ne.symm hhash.1
  have hnotplus : c ≠ plusMark := Ne.symm hplus.1
  simp [mqttMatches, hnothash, hnotplus]

theorem category_ne_nil (topics : MqttTopics) (category : Bytes) : topics.category category ≠ [] := by
  simp [MqttTopics.category, makeTopic]

/-- The topics of the contract are below the categories, none is a category itself. -/
theorem topic_ne_category {topics : MqttTopics} (hbuilt : ∀ f, topics.topic f = makeTopic topics.root f.leaf)
    {category : Bytes} (hcategory : category ∈ readCategories) (f : TopicField) :
    topics.topic f ≠ topics.category category := by
  have hplain : ∀ c ∈ readCategories, slash ∉ c := by decide
  rw [hbuilt]
  intro h
  obtain rfl : f.leaf = category := (List.cons.inj (List.append_cancel_left h)).2
  exact hplain _ hcategory (leaf_shape f).1

section Approved

variable {topics : MqttTopics} {category remainder scope topic : Bytes}
  (hbuilt : ∀ f, topics.topic f = makeTopic topics.root f.leaf)
  (hcategory : category ∈ readCategories)
  (hplus : plusMark ∉ topics.category category) (hhash : hashMark ∉ topics.category category)

include hbuilt hcategory

theorem confined_of_prefix (h : topics.category category ++ [slash] <+: topic)
    (hscope : scope ≠ txt "*" → hashMark ∉ scope → Below scope topic) :
    Confined topics scope topic :=
  have hcommand := not_command hcategory h
  ⟨⟨category, hcategory, h⟩, hcommand, action_of_not_command hbuilt hcommand, hscope⟩

include hplus hhash

theorem confined_subtree
    (hscope : topicScopeContains scope (makeTopic (topics.category category) [hashMark]) = true) :
    (∀ topic, topicMatches (makeTopic (topics.category category) [hashMark]) topic = true →
      Confined topics scope topic) ∧
    ∀ f, topicMatches (makeTopic (topics.category category) [hashMark]) (topics.topic f) =
      mqttMatches (makeTopic (topics.category category) [hashMark]) (topics.topic f) := by
  unfold makeTopic at hscope ⊢
  constructor
  · intro topic hmatch
    have hprefix := (topicMatches_subtree hplus hhash topic).mp hmatch
    refine confined_of_prefix hbuilt hcategory hprefix fun hstar hfree => ?_
    rcases topicScopeContains_below hscope with hall | hbelow
    · exact absurd hall hstar
    · exact below_of_subtree hfree hbelow hprefix
  · intro f
    rw [mqttMatches_eq hplus hhash (category_ne_nil topics category), Bool.eq_iff_iff,
      topicMatches_subtree hplus hhash, TopicFilter.matches_subtree hplus hhash (by decide)]
    simp only [topic_ne_category hbuilt hcategory f, false_or]

theorem confined_literal (hnotplus : plusMark ∉ remainder) (hnothash : hashMark ∉ remainder)
    (hscope : topicScopeContains scope (makeTopic (topics.category category) remainder) = true) :
    (∀ topic, topicMatches (makeTopic (topics.category category) remainder) topic = true →
      Confined topics scope topic) ∧
    ∀ f, topicMatches (makeTopic (topics.category category) remainder) (topics.topic f) =
      mqttMatches (makeTopic (topics.category category) remainder) (topics.topic f) := by
  have hfreeplus := notMem_makeTopic hplus (by decide) hnotplus
  have hfreehash := notMem_makeTopic hhash (by decide) hnothash
  constructor
  · intro topic hmatch
    obtain rfl := (topicMatches_literal hfreeplus hfreehash topic).mp hmatch
    refine confined_of_prefix hbuilt hcategory ⟨remainder, ?_⟩ fun hstar _ => ?_
    · rw [List.append_assoc]
      rfl
    · rcases topicScopeContains_below hscope with hall | hbelow
      · exact absurd hall hstar
      · exact hbelow
  · intro f
    have hfilter : mqttMatches (topics.category category ++ slash :: remainder) (topics.topic f) =
        TopicFilter.Matches slash plusMark hashMark (topics.category category ++ slash :: remainder)
          (topics.topic f) :=
      mqttMatches_eq hplus hhash (category_ne_nil topics category)
    unfold makeTopic at hfreeplus hfreehash ⊢
    rw [hfilter, Bool.eq_iff_iff, topicMatches_literal hfreeplus hfreehash,
      TopicFilter.matches_literal hfreeplus hfreehash]

end Approved

theorem subscription_confined {clientId unitId : Vector UInt8 33} {topics : MqttTopics}
    {principal : MachinePrincipal} {filter : Bytes}
    (hbuild : topicsBuild clientId unitId = .ok topics)
    (hallowed : subscriptionAllowed topics principal filter = true) :
    (∀ topic, topicMatches filter topic = true → Confined topics principal.topicScope topic) ∧
      ∀ f, topicMatches filter (topics.topic f) = mqttMatches filter (topics.topic f) := by
  obtain ⟨-, -, -, hbuilt⟩ := topicsBuild_ok hbuild
  unfold subscriptionAllowed at hallowed
  rw [Bool.and_eq_true, Bool.and_eq_true] at hallowed
  obtain ⟨⟨-, happroved⟩, hscope⟩ := hallowed
  obtain ⟨category, hcategory, remainder, rfl, hremainder⟩ := approvedReadFilter_cases happroved
  have hwild : ∀ c ∈ readCategories, plusMark ∉ c ∧ hashMark ∉ c := by decide
  obtain ⟨hnoplus, hnohash⟩ := hwild category hcategory
  have hplus : plusMark ∉ topics.category category :=
    notMem_makeTopic (notMem_root hbuild (by decide) (by decide)) (by decide) hnoplus
  have hhash : hashMark ∉ topics.category category :=
    notMem_makeTopic (notMem_root hbuild (by decide) (by decide)) (by decide) hnohash
  rcases hremainder with rfl | ⟨hnothash, hnotplus, -⟩
  · exact confined_subtree hbuilt hcategory hplus hhash hscope
  · exact confined_literal hbuilt hcategory hplus hhash hnotplus hnothash hscope

/-! ## A unit -/

def unitClient : Vector UInt8 33 := charArray 33 (asciiBytes "paladin")
def unitName : Vector UInt8 33 := charArray 33 (asciiBytes "pump_001")

def unitTopics : MqttTopics :=
  ⟨topicRoot unitClient unitName, fun f => makeTopic (topicRoot unitClient unitName) f.leaf⟩

theorem unitTopics_build : topicsBuild unitClient unitName = .ok unitTopics :=
  topicsBuild_valid (by decide +kernel) (by decide +kernel)

/-- A panel that may see the status of every unit of the scope. -/
def panelPrincipal (topicScope : Bytes) (permissions : PermissionSet) : MachinePrincipal where
  identifier := panelId
  clientType := machineClientHmi
  scope := txt "*"
  topicScope := topicScope
  permissions := permissions
  credentialVersion := 1
  principalRevision := 1
  recordSecurityEpoch := 1

theorem subscription_confined_state :
    topicsBuild unitClient unitName = .ok unitTopics ∧
      Confined unitTopics (txt "argus/paladin") (unitTopics.topic .stateEstop) := by
  have hallowed : subscriptionAllowed unitTopics (panelPrincipal (txt "argus/paladin") 1)
      (makeTopic (unitTopics.category (txt "state")) [hashMark]) = true := by decide +kernel
  have hconfined := subscription_confined unitTopics_build hallowed
  exact ⟨unitTopics_build, hconfined.1 _ (by decide +kernel)⟩

/-- The scope `*` contains every filter, and no topic lies below it. -/
theorem scope_star_unbounded :
    ¬ ∀ (clientId unitId : Vector UInt8 33) (topics : MqttTopics) (principal : MachinePrincipal)
      (filter topic : Bytes), topicsBuild clientId unitId = .ok topics →
      subscriptionAllowed topics principal filter = true → topicMatches filter topic = true →
        Below principal.topicScope topic := by
  intro h
  have hbelow := h unitClient unitName unitTopics (panelPrincipal (txt "*") 1)
    (makeTopic (unitTopics.category (txt "state")) [hashMark]) (unitTopics.topic .stateEstop)
    unitTopics_build (by decide +kernel) (by decide +kernel)
  exact absurd hbelow (by decide +kernel)

end Argus
