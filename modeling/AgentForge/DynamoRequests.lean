import AgentForge.DynamoItems

/-! What the requests of the `DynamoStore` come to. A conditional put inserts where
nothing is stored, an update changes an item that is there and meets its condition,
and a condition on statuses says that the stored status is one of them. -/
namespace AgentForge

open DynamoDB

variable {V F : Type} [DecidableEq V] {d : DynamoStore V F} {S : Service V tableSchema}
  {db : S.State} {key : Key V}
  {item : Item V} {taskID runID : String} {condition : Condition} {update : Update}
  {holds : Item V → Bool} {changes : Changes V}

/-! ## Reading -/

/-- An answer without attributes means that nothing is stored. -/
theorem getItem_entries : (S.getItem db key).entries.length = 0 ↔ (S.items db).lookup key = none := by
  cases found : (S.items db).lookup key with
  | none => simp [S.getItem_missing found]
  | some item =>
    rw [S.getItem_found found]
    have filled := (S.keyed found).1
    cases left : item.entries with
    | nil => simp [AList.lookup, left] at filled
    | cons => simp

theorem readItem_missing (gone : (S.items db).lookup key = none) :
    DynamoStore.readItem db key unmarshal message = .error .notFound := by
  rw [DynamoStore.readItem, if_pos (getItem_entries.mpr gone)]

theorem readItem_found (there : (S.items db).lookup key = some item)
    (read : unmarshal item = some record) :
    DynamoStore.readItem db key unmarshal message = .ok record := by
  have filled : ¬ (S.getItem db key).entries.length = 0 := by
    rw [getItem_entries, there]
    exact Option.some_ne_none item
  rw [DynamoStore.readItem, if_neg filled, S.getItem_found there, read]

omit [DecidableEq V] in
private theorem project_pk (item : Item V) :
    0 < (Item.project ["pk"] item).entries.length ↔ (item.lookup "pk").isSome := by
  cases found : item.lookup "pk" with
  | none | some value => simp [Item.project, found]

theorem taskExists_eq : d.taskExists db taskID = ((S.items db).lookup (d.taskKey taskID)).isSome := by
  rw [Bool.eq_iff_iff, ← Service.isSome_partition, DynamoStore.taskExists, decide_eq_true_iff,
    S.getAttributes_eq]
  exact project_pk _

theorem runExists_eq :
    d.runExists db taskID runID = ((S.items db).lookup (d.runKey taskID runID)).isSome := by
  rw [Bool.eq_iff_iff, ← Service.isSome_partition, DynamoStore.runExists, decide_eq_true_iff,
    S.getAttributes_eq]
  exact project_pk _

/-! ## Writing -/

theorem prepares_insert (db : S.State) (keyed : Keyed tableSchema key item) :
    S.Prepares db (.put key.table item notExists {})
      ⟨key, ((S.items db).lookup key).isNone, item⟩ := by
  have resolved : notExists.resolve ({} : Placeholders V) =
      some fun item => (item.lookup "pk").isNone && (item.lookup "sk").isNone := by
    simp [notExists, Condition.resolve, Placeholders.attribute]
  have absent : (((S.getItem db key).lookup tableSchema.partition).isNone &&
      ((S.getItem db key).lookup tableSchema.sort).isNone) = ((S.items db).lookup key).isNone :=
    Service.isNone_key
  have planned := S.prepares_put db keyed (by simp [Placeholders.allUsed]) resolved
  rw [← absent]
  exact planned

/-- An update of an item whose condition asks, among the rest, that it is there. -/
structure Updates (key : Key V) (request : Write V) (holds : Item V → Bool) (changes : Changes V) :
    Prop where
  plan : ∀ (S : Service V tableSchema) (db : S.State), S.Prepares db request
    ⟨key, holds (S.getItem db key),
      changes.apply (((S.items db).lookup key).getD (key.item tableSchema))⟩
  absent : holds ∅ = false

namespace Updates

theorem of (holds : Item V → Bool) (changes : Changes V)
    (formed : changes.Allowed tableSchema ∧ p.allUsed (update.uses ++ condition.uses) = true ∧
      condition.resolve p = some holds ∧ update.resolve p = some changes)
    (absent : holds ∅ = false) : Updates key (.update key update condition p) holds changes := by
  obtain ⟨allowed, used, resolved, filled⟩ := formed
  exact ⟨fun S db => S.prepares_update db allowed used resolved filled, absent⟩

section Plans

variable {request : Write V} (updates : Updates key request holds changes)

include updates

theorem plan_found (found : (S.items db).lookup key = some item) :
    S.Prepares db request ⟨key, holds item, changes.apply item⟩ := by
  have planned := updates.plan S db
  rwa [S.getItem_found found, found, Option.getD_some] at planned

theorem missing (none_there : (S.items db).lookup key = none) :
    DynamoStore.writeItem db request refused message = (.error refused, db) := by
  have planned := updates.plan S db
  rw [S.getItem_missing none_there] at planned
  simp [DynamoStore.writeItem, S.write_refused planned updates.absent,
    isConditionalCheckFailed]

theorem unmet (found : (S.items db).lookup key = some item) (unmet : holds item = false) :
    DynamoStore.writeItem db request refused message = (.error refused, db) := by
  simp [DynamoStore.writeItem, S.write_refused (updates.plan_found found) unmet,
    isConditionalCheckFailed]

theorem done (found : (S.items db).lookup key = some item) (met : holds item = true) :
    ∃ db', DynamoStore.writeItem db request refused message = (.ok (), db') ∧
      S.items db' = (S.items db).insert key (changes.apply item) := by
  obtain ⟨db', written, items⟩ := S.write_done (updates.plan_found found) met
  exact ⟨db', by simp [DynamoStore.writeItem, written], items⟩

end Plans

end Updates

/-! ## Conditions on statuses -/

private theorem statusPlaceholder_ne (other : ¬ [':', 's'] <+: text.toList) :
    DynamoStore.statusPlaceholder i ≠ text := by
  rintro rfl
  exact other ⟨(GoText.decimal i).toList, by simp [DynamoStore.statusPlaceholder]⟩

private theorem statusPlaceholder_injective : Function.Injective DynamoStore.statusPlaceholder := by
  intro i j same
  have padding : ∀ n : Nat, GoText.decimal n = GoText.padded 0 n := by
    intro n
    simp [GoText.decimal, GoText.padded]
  have digits : GoText.decimal i = GoText.decimal j := by
    simpa [DynamoStore.statusPlaceholder, ← String.toList_inj] using same
  rw [padding, padding] at digits
  exact Int.ofNat_inj.mp (GoText.padded_injective 0 digits)

omit [DecidableEq V] in
/-- Every status of a condition is found under its placeholder. -/
theorem lookup_statusPlaceholder {statuses : List TaskStatus} {start : Nat}
    (member : entry ∈ statuses.zipIdx start) :
    (statuses.zipIdx start |>.map fun entry =>
      (DynamoStore.statusPlaceholder entry.2, d.av.string entry.1.text)).lookup
        (DynamoStore.statusPlaceholder entry.2) = some (d.av.string entry.1.text) := by
  induction statuses generalizing start with
  | nil => simp at member
  | cons status rest ih =>
    rw [List.zipIdx_cons, List.map_cons]
    rcases List.mem_cons.mp member with rfl | later
    · simp
    · have after : start < entry.2 := (List.mem_zipIdx later).1
      have other : (DynamoStore.statusPlaceholder entry.2 ==
          DynamoStore.statusPlaceholder start) = false :=
        beq_false_of_ne fun same => absurd (statusPlaceholder_injective same) (by omega)
      rw [List.lookup_cons, other]
      exact ih later

/-- `#status = :s0 OR #status = :s1 OR …`. -/
theorem resolve_statuses {statuses : List TaskStatus} (some_status : statuses ≠ [])
    (others : ∀ entry ∈ extra, ¬ [':', 's'] <+: entry.1.toList) :
    (d.buildStatusConditionTask statuses).1.resolve
        ⟨[("#status", "status")], extra ++ (d.buildStatusConditionTask statuses).2.2⟩ =
      some fun item => statuses.any fun status =>
        item.lookup "status" = some (d.av.string status.text) := by
  have found : ∀ entry ∈ statuses.zipIdx,
      (extra ++ (d.buildStatusConditionTask statuses).2.2).lookup
        (DynamoStore.statusPlaceholder entry.2) = some (d.av.string entry.1.text) := by
    intro entry member
    have absent : extra.lookup (DynamoStore.statusPlaceholder entry.2) = none := by
      rw [List.lookup_eq_none_iff]
      intro other inExtra
      exact bne_iff_ne.mpr (statusPlaceholder_ne (others other inExtra))
    rw [List.lookup_append, absent, Option.none_or]
    exact lookup_statusPlaceholder member
  have parts : List.Forall₂ (fun part meets => Condition.resolve
        ⟨[("#status", "status")], extra ++ (d.buildStatusConditionTask statuses).2.2⟩ part =
          some meets)
      (statuses.zipIdx.map fun entry => .equal "#status" (DynamoStore.statusPlaceholder entry.2))
      (statuses.zipIdx.map fun entry item =>
        decide (item.lookup "status" = some (d.av.string entry.1.text))) := by
    rw [List.forall₂_map_left_iff, List.forall₂_map_right_iff, List.forall₂_same]
    intro entry member
    simp [Condition.resolve, Placeholders.attribute, found entry member]
  have resolved := Condition.resolve_anyOf (by simpa using some_status) parts
  refine Eq.trans resolved (congrArg some (funext fun item => ?_))
  rw [List.any_map]
  conv_rhs => rw [← List.zipIdx_map_fst 0 statuses, List.any_map]
  rfl

omit [DecidableEq V] in
/-- The placeholders of the statuses are all used. -/
theorem used_statuses (named : "#status" ∈ uses) (others : ∀ entry ∈ extra, entry.1 ∈ uses)
    (contains : (d.buildStatusConditionTask statuses).1.uses ⊆ uses) :
    Placeholders.allUsed ⟨[("#status", "status")],
      extra ++ (d.buildStatusConditionTask statuses).2.2⟩ uses = true := by
  have placed : ∀ entry ∈ (d.buildStatusConditionTask statuses).2.2, entry.1 ∈ uses := by
    intro entry member
    apply contains
    obtain ⟨status, inStatuses, rfl⟩ := List.mem_map.mp member
    rw [DynamoStore.buildStatusConditionTask, Condition.uses_anyOf, List.mem_flatMap]
    exact ⟨_, List.mem_map.mpr ⟨status, inStatuses, rfl⟩, by simp [Condition.uses]⟩
  simp only [Placeholders.allUsed, Bool.and_eq_true, List.all_eq_true, List.contains_iff_mem]
  constructor
  · simpa using named
  · intro entry member
    rcases List.mem_append.mp member with first | second
    · exact others entry first
    · exact placed entry second

/-- An update on the condition that the stored status is one of some, next to
another condition that an empty item does not meet. -/
theorem Updates.ofStatuses (extra : List (String × V)) (first : Item V → Bool) (changes : Changes V)
    (some_status : statuses ≠ []) (formed : changes.Allowed tableSchema ∧ "#status" ∈ update.uses ∧
      (∀ entry ∈ extra, entry.1 ∈ update.uses ++ front.uses ∧ ¬ [':', 's'] <+: entry.1.toList) ∧
      front.resolve ⟨[("#status", "status")],
        extra ++ (d.buildStatusConditionTask statuses).2.2⟩ = some first ∧
      update.resolve ⟨[("#status", "status")],
        extra ++ (d.buildStatusConditionTask statuses).2.2⟩ = some changes)
    (absent : first ∅ = false) :
    Updates key (.update key update (.and front (d.buildStatusConditionTask statuses).1)
        ⟨[("#status", "status")], extra ++ (d.buildStatusConditionTask statuses).2.2⟩)
      (fun item => first item && statuses.any fun status =>
        item.lookup "status" = some (d.av.string status.text)) changes := by
  obtain ⟨allowed, named, others, resolved, filled⟩ := formed
  refine Updates.of _ _ ⟨allowed, ?_, ?_, filled⟩ (by simp [absent])
  · apply used_statuses
    · exact List.mem_append_left _ named
    · intro entry member
      rw [Condition.uses, ← List.append_assoc]
      exact List.mem_append_left _ (others entry member).1
    · rw [Condition.uses, ← List.append_assoc]
      exact List.subset_append_right _ _
  · have statuses' := resolve_statuses (d := d) some_status fun entry member =>
      (others entry member).2
    simp [Condition.resolve, resolved, statuses']

end AgentForge
