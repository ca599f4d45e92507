import JsonValidation.Value.Reader
import JsonValidation.Proofs.Culprits
import JsonValidation.Proofs.EqualInputs
import JsonValidation.Proofs.Narrowing

/-!
# Values that are read have unique keys

The builder keeps unique keys in everything it has put together so far (`Value.Builder.Good`): a
token keeps this (`Value.Builder.Good.step`), and so does a text (`Value.uniqueKeys_of_ofText?`). So
what a schema says of inputs with unique keys, it says of all inputs that come from a text:

* `Input.IsRead`: an input that was read from a text, or is part of one that was, or is absent;
* `Schema.rejected_of_isRead`, `Schema.accepted_of_isRead`: what can be relied on after a check of such
  an input;
* `Schema.accepted_iff_of_isRead`: such inputs that are equal are accepted together.
-/

namespace JsonValidation

namespace Value

/-- Unique keys do not depend on the order of entries. -/
theorem uniqueKeys_object_reverse {entries : List (String × Value)} :
    (object entries.reverse).UniqueKeys ↔ (object entries).UniqueKeys := by
  have hr : (entries.reverse.map Prod.fst).Nodup ↔ (entries.map Prod.fst).Nodup :=
    ((List.reverse_perm entries).map Prod.fst).nodup_iff
  simp only [uniqueKeys_object, hr, List.mem_reverse]

theorem keys_replaced (key : String) (v : Value) (entries : List (String × Value)) :
    (entries.map fun e => if e.1 == key then (key, v) else e).map Prod.fst =
      entries.map Prod.fst := by
  rw [List.map_map]
  refine List.map_congr_left fun e _ => ?_
  by_cases h : e.1 = key <;> simp [h]

/-- An added entry replaces the one with its key. -/
theorem uniqueKeys_addEntry {key : String} {v : Value} {entries : List (String × Value)}
    (hv : v.UniqueKeys) (he : (object entries).UniqueKeys) :
    (object (addEntry key v entries)).UniqueKeys := by
  rw [uniqueKeys_object] at he ⊢
  unfold addEntry
  split
  · rw [keys_replaced]
    refine ⟨he.1, fun e hm => ?_⟩
    obtain ⟨e', hm', rfl⟩ := List.mem_map.mp hm
    split
    · exact hv
    · exact he.2 e' hm'
  · rename_i hn
    rw [List.map_cons, List.nodup_cons]
    refine ⟨⟨fun hm => hn ?_, he.1⟩, List.forall_mem_cons.mpr ⟨hv, he.2⟩⟩
    obtain ⟨e, hm, he⟩ := List.mem_map.mp hm
    exact List.any_eq_true.mpr ⟨e, hm, beq_iff_eq.mpr he⟩

/-- Whether everything read into an open container has unique keys. -/
def Frame.Good : Frame → Prop
  | .array items => (Value.array items).UniqueKeys
  | .object entries _ => (Value.object entries).UniqueKeys

/-- Whether everything that the builder has put together has unique keys. -/
def Builder.Good : Builder → Prop
  | .value stack => ∀ f ∈ stack, f.Good
  | .firstItem stack => ∀ f ∈ stack, f.Good
  | .key entries _ stack => (Value.object entries).UniqueKeys ∧ ∀ f ∈ stack, f.Good
  | .colon entries _ stack => (Value.object entries).UniqueKeys ∧ ∀ f ∈ stack, f.Good
  | .complete v stack => v.UniqueKeys ∧ ∀ f ∈ stack, f.Good

theorem uniqueKeys_nil : (array []).UniqueKeys ∧ (object []).UniqueKeys :=
  ⟨uniqueKeys_array.mpr fun _ h => absurd h List.not_mem_nil,
    uniqueKeys_object.mpr ⟨List.nodup_nil, fun _ h => absurd h List.not_mem_nil⟩⟩

theorem uniqueKeys_ofWord? {chars : List Char} {v : Value} (h : ofWord? chars = some v) :
    v.UniqueKeys := by
  unfold ofWord? at h
  split at h
  · cases h
    trivial
  split at h
  · cases h
    trivial
  split at h
  · cases h
    trivial
  obtain ⟨n, -, rfl⟩ := Option.map_eq_some_iff.mp h
  trivial

theorem Builder.Good.start? {stack : List Frame} (hs : ∀ f ∈ stack, f.Good) {token : Token}
    {builder : Builder} (h : Builder.start? stack token = some builder) : builder.Good := by
  cases token with
  | openArray =>
    cases h
    exact hs
  | openObject =>
    cases h
    exact ⟨uniqueKeys_nil.2, hs⟩
  | word chars =>
    obtain ⟨v, hv, rfl⟩ := Option.map_eq_some_iff.mp h
    exact ⟨uniqueKeys_ofWord? hv, hs⟩
  | string s =>
    cases h
    exact ⟨uniqueKeys_string s, hs⟩
  | closeArray | closeObject | comma | colon => cases h

theorem uniqueKeys_array_cons {v : Value} {items : List Value} :
    (array (v :: items)).UniqueKeys ↔ v.UniqueKeys ∧ (array items).UniqueKeys := by
  rw [uniqueKeys_array, uniqueKeys_array, List.forall_mem_cons]

/-- One token keeps unique keys in everything put together so far. -/
theorem Builder.Good.step {builder next : Builder} {token : Token} (hb : builder.Good)
    (h : builder.step token = some next) : next.Good := by
  unfold Builder.step at h
  split at h
  · exact start? hb h
  · cases h
    exact ⟨uniqueKeys_nil.1, hb⟩
  · have hf : (Frame.array []).Good := uniqueKeys_nil.1
    exact start? (List.forall_mem_cons.mpr ⟨hf, hb⟩) h
  · cases h
    exact hb
  · cases h
    exact ⟨uniqueKeys_nil.2, hb.2⟩
  · cases h
    exact List.forall_mem_cons.mpr hb
  · obtain ⟨hv, hs⟩ := hb
    obtain ⟨hf, hs⟩ := List.forall_mem_cons.mp hs
    cases h
    exact List.forall_mem_cons.mpr ⟨uniqueKeys_array_cons.mpr ⟨hv, hf⟩, hs⟩
  · obtain ⟨hv, hs⟩ := hb
    obtain ⟨hf, hs⟩ := List.forall_mem_cons.mp hs
    cases h
    refine ⟨uniqueKeys_array.mpr fun w hw => ?_, hs⟩
    exact uniqueKeys_array.mp (uniqueKeys_array_cons.mpr ⟨hv, hf⟩) w (List.mem_reverse.mp hw)
  · obtain ⟨hv, hs⟩ := hb
    obtain ⟨hf, hs⟩ := List.forall_mem_cons.mp hs
    cases h
    exact ⟨uniqueKeys_addEntry hv hf, hs⟩
  · obtain ⟨hv, hs⟩ := hb
    obtain ⟨hf, hs⟩ := List.forall_mem_cons.mp hs
    cases h
    exact ⟨uniqueKeys_object_reverse.mpr (uniqueKeys_addEntry hv hf), hs⟩
  · cases h

theorem Builder.Good.run {tokens : List Token} {builder last : Builder} (hb : builder.Good)
    (h : tokens.foldlM Builder.step builder = some last) : last.Good := by
  induction tokens generalizing builder with
  | nil =>
    cases h
    exact hb
  | cons token rest ih =>
    rw [List.foldlM_cons] at h
    obtain ⟨next, hn, h⟩ := Option.bind_eq_some_iff.mp h
    exact ih (hb.step hn) h

/-- A value that is read from a text has unique keys. -/
theorem uniqueKeys_of_ofText? {text : String} {v : Value} (h : ofText? text = some v) :
    v.UniqueKeys := by
  obtain ⟨tokens, -, h⟩ := Option.bind_eq_some_iff.mp h
  obtain ⟨last, hl, h⟩ := Option.bind_eq_some_iff.mp h
  have start : (Builder.value []).Good := fun _ h => absurd h List.not_mem_nil
  have hg : last.Good := start.run hl
  split at h
  · cases h
    exact hg.1
  · cases h

end Value

/-! ## Checks of what was read -/

/-- Whether an input was read from a text, by itself or as a part of another one, or is absent. -/
inductive Input.IsRead : Input → Prop where
  | absent : IsRead .absent
  | part {text : String} {v : Value} {path : List Segment} {x : Input}
    (read : Value.ofText? text = some v) (found : (present v).follow? path = some x) : IsRead x

theorem Input.IsRead.uniqueKeys {x : Input} (h : x.IsRead) : x.UniqueKeys := by
  cases h with
  | absent => trivial
  | part read found =>
    have hv : (present _).UniqueKeys := Value.uniqueKeys_of_ofText? read
    exact hv.follow? found

namespace Schema

variable {schema : Schema} {x y : Input}

/-- What is reported for an input that was read is true of it, and points at its culprits. -/
theorem rejected_of_isRead (hx : x.IsRead) {failure : Failure}
    (h : (schema.check x).verdict = .rejected failure) :
    failure.IsWitness x ∧ ∀ issue ∈ failure.report.toList, issue.PointsInto x := by
  have hw : failure.IsWitness x := (arises_of_rejected h).isWitness hx.uniqueKeys
  exact ⟨hw, hw.pointsInto⟩

/-- The view of an input that was read and accepted can be relied on. -/
theorem accepted_of_isRead (hx : x.IsRead) (hg : ∀ g ∈ schema.guards, g.IsHonest)
    (h : (schema.check x).verdict = .accepted) : schema.Backs (.whole schema.output x) :=
  backs_whole hg hx.uniqueKeys h

/-- Of two equal inputs that were read, both are accepted or neither. -/
theorem accepted_iff_of_isRead (hx : x.IsRead) (hy : y.IsRead) (h : x.equal y = true)
    (hg : ∀ g ∈ schema.guards, g.Answers ∧ g.RespectsEquality) :
    (schema.check x).verdict = .accepted ↔ (schema.check y).verdict = .accepted := by
  have ha : x.Alike y := ⟨hx.uniqueKeys, hy.uniqueKeys, h⟩
  exact ⟨transfers_alike hg ha, transfers_alike hg ha.symm⟩

end Schema

end JsonValidation
