import ArgusPump.MqttTopics
import Mathlib.Data.List.Nodup

/-!
# The namespace of a unit

What `argus_mqtt_topics_build` of `main/argus_mqtt_contract.c` builds for one identity, and
for two: a topic has no more than one field of one unit.

    a valid identity → topics that fit, are told apart, and are nobody else's
                                                                  (topics_unambiguous)
-/

namespace Argus

open Interact

theorem mem_topicFields (f : TopicField) : f ∈ TopicField.all := by
  cases f <;> decide

theorem leaf_injective : Function.Injective TopicField.leaf := by
  have hnodup : (TopicField.all.map TopicField.leaf).Nodup := by decide +kernel
  intro f g h
  exact List.inj_on_of_nodup_map hnodup (mem_topicFields f) (mem_topicFields g) h

/-- The topics of one unit are told apart. -/
theorem topic_injective {topics : MqttTopics} (h : topics.Built) :
    Function.Injective topics.topic := by
  obtain ⟨c, u, hbuild⟩ := h
  obtain ⟨-, -, -, htopic⟩ := topicsBuild_ok hbuild
  intro f g hfg
  rw [htopic f, htopic g] at hfg
  unfold makeTopic at hfg
  rw [List.append_cancel_left_eq] at hfg
  exact leaf_injective (List.cons_inj_right _ |>.mp hfg)

/-- `classify` compares with one field for each action. -/
theorem classifyOrder_field {action : TopicAction} {f : TopicField}
    (h : action.field = some f) : (f, action) ∈ classifyOrder := by
  cases action with
  | none => cases h
  | command a => cases a <;> cases h <;> decide
  | heartbeat => cases h; decide
  | requestAuthority => cases h; decide
  | releaseAuthority => cases h; decide

theorem classify_eq_iff {topics : MqttTopics} (h : topics.Built) {action : TopicAction}
    {f : TopicField} (hf : action.field = some f) (topic : Bytes) :
    topics.classify topic = action ↔ topic = topics.topic f := by
  constructor
  · rintro rfl
    exact topics.classify_field hf
  · rintro rfl
    have hmem := classifyOrder_field hf
    have hnodup : (classifyOrder.map Prod.fst).Nodup := by decide
    unfold MqttTopics.classify
    split
    · next e hfind =>
      have hsame : topics.topic f = topics.topic e.1 := by simpa using List.find?_some hfind
      have he : e = (f, action) := List.inj_on_of_nodup_map hnodup (List.mem_of_find?_eq_some hfind)
        hmem (topic_injective h hsame).symm
      rw [he]
    · next hfind =>
      have hno := List.find?_eq_none.mp hfind _ hmem
      simp at hno

theorem exists_field {action : TopicAction} (h : action ≠ .none) : ∃ f, action.field = some f := by
  cases action with
  | none => exact absurd rfl h
  | command a => cases a <;> exact ⟨_, rfl⟩
  | heartbeat => exact ⟨_, rfl⟩
  | requestAuthority => exact ⟨_, rfl⟩
  | releaseAuthority => exact ⟨_, rfl⟩

/-- What is no action's topic is classified as none. -/
theorem classify_none_iff {topics : MqttTopics} (h : topics.Built) (topic : Bytes) :
    topics.classify topic = .none ↔
      ∀ action f, TopicAction.field action = some f → topic ≠ topics.topic f := by
  constructor
  · intro hnone action f hf heq
    rw [(classify_eq_iff h hf topic).mpr heq] at hnone
    rw [hnone] at hf
    cases hf
  · intro hno
    by_contra hsome
    obtain ⟨f, hf⟩ := exists_field hsome
    exact hno _ f hf (topics.classify_field hf)

/-- A topic of one identity is no topic of another. -/
theorem topic_ne {clientId unitId clientId' unitId' : Vector UInt8 33} {t u : MqttTopics}
    (ht : topicsBuild clientId unitId = .ok t) (hu : topicsBuild clientId' unitId' = .ok u)
    (hne : (cString clientId, cString unitId) ≠ (cString clientId', cString unitId'))
    (f g : TopicField) : t.topic f ≠ u.topic g := by
  intro heq
  have hsame : t = u := built_eq ⟨_, _, ht⟩ ⟨_, _, hu⟩ heq
  obtain ⟨hclient, -, hroot, -⟩ := topicsBuild_ok ht
  obtain ⟨hclient', -, hroot', -⟩ := topicsBuild_ok hu
  have hslash : identityChar slash = false := by decide
  rw [hsame, hroot'] at hroot
  unfold topicRoot at hroot
  simp only [List.append_assoc, List.append_cancel_left_eq] at hroot
  obtain ⟨hfirst, hsecond⟩ := Interact.TopicFilter.eq_of_append_sep
    (notMem_cString hclient' hslash) (notMem_cString hclient hslash) hroot
  exact hne (by rw [hfirst, hsecond])

/-- **Unambiguous topics.** -/
theorem topics_unambiguous {clientId unitId : Vector UInt8 33}
    (hclient : identityValidateClientId clientId = true)
    (hunit : identityValidateUnitId unitId = true) :
    ∃ topics, topicsBuild clientId unitId = .ok topics ∧
      (topics.root = topicRoot clientId unitId ∧ topics.root.length < mqttTopicRootCap) ∧
      (∀ f, topics.topic f = makeTopic topics.root f.leaf ∧
        (topics.topic f).length < mqttBrokerTopicCap) ∧
      Function.Injective topics.topic ∧
      (∀ action, action ≠ .none → ∃! topic, topics.classify topic = action) ∧
      (∀ topic, topics.classify topic = .none ↔
        ∀ action f, TopicAction.field action = some f → topic ≠ topics.topic f) ∧
      ∀ clientId' unitId' others, topicsBuild clientId' unitId' = .ok others →
        (cString clientId, cString unitId) ≠ (cString clientId', cString unitId') →
          (∀ f g, topics.topic f ≠ others.topic g) ∧
          ∀ topic, topics.classify topic ≠ .none → others.classify topic = .none := by
  have hbuild := topicsBuild_valid hclient hunit
  have hbuilt : MqttTopics.Built ⟨topicRoot clientId unitId,
      fun f => makeTopic (topicRoot clientId unitId) f.leaf⟩ := ⟨_, _, hbuild⟩
  have hroot := topicRoot_length hclient hunit
  refine ⟨_, hbuild, ⟨rfl, hroot⟩, fun f => ⟨rfl, makeTopic_length hroot f⟩,
    topic_injective hbuilt, fun action haction => ?_, classify_none_iff hbuilt,
    fun clientId' unitId' others hothers hne => ?_⟩
  · obtain ⟨f, hf⟩ := exists_field haction
    refine ⟨_, (classify_eq_iff hbuilt hf _).mpr rfl, fun topic htopic => ?_⟩
    exact (classify_eq_iff hbuilt hf topic).mp htopic
  · have hdisjoint := topic_ne hbuild hothers hne
    refine ⟨hdisjoint, fun topic htopic => ?_⟩
    obtain ⟨f, hf⟩ := exists_field htopic
    by_contra hother
    obtain ⟨g, hg⟩ := exists_field hother
    exact hdisjoint f g ((MqttTopics.classify_field _ hf).symm.trans (others.classify_field hg))

theorem topics_unambiguous_unit :
    ∃ topics, topicsBuild (charArray 33 (txt "site_01")) (charArray 33 (txt "pump_01")) =
      .ok topics ∧ Function.Injective topics.topic := by
  obtain ⟨topics, hbuild, -, -, hinjective, -⟩ :=
    @topics_unambiguous (charArray 33 (txt "site_01")) (charArray 33 (txt "pump_01"))
      (by decide +kernel) (by decide +kernel)
  exact ⟨topics, hbuild, hinjective⟩

end Argus
