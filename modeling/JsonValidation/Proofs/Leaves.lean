import Mathlib.Data.List.Basic
import JsonValidation.Failure.Report
import JsonValidation.Proofs.Induction

/-!
# Reports list leaves

The tree of a failure branches at unions only, and its leaves stand in an order: two routes to
different leaves part at a union, and the leaf under the earlier alternative comes first. A report has
one issue for each leaf, in that order, and the issue can be read off the leaf and the route to it.

* `Failure.Leads`, `Failure.IsLeaf`: the routes through a failure, and where they end;
* `Failure.leaves`: the leaves of a failure from left to right, with their routes;
* `Leaf.issue`: the issue of a leaf;
* `Failure.report_lists_leaves`: a report is the list of these issues.
-/

namespace JsonValidation

/-- One turn on the way down the tree of a failure. -/
inductive Turn where
  | element (segment : Segment)
  | key
  | alternative (n : Nat)
deriving DecidableEq

/-- The step into the input that a turn makes, if it makes one. -/
def Turn.segment? : Turn → Option Segment
  | .element segment => some segment
  | .key => none
  | .alternative _ => none

namespace Failure

/-! ## Routes -/

/-- Whether a route leads from a failure to another one inside it. -/
inductive Leads : Failure → List Turn → Failure → Prop where
  | here (p : Failure) : Leads p [] p
  | element {segment : Segment} {inner q : Failure} {route : List Turn}
    (leads : Leads inner route q) :
    Leads (.invalidElement segment inner) (.element segment :: route) q
  | key {inner q : Failure} {route : List Turn} (leads : Leads inner route q) :
    Leads (.invalidKey inner) (.key :: route) q
  | alternative {alternatives : List Failure} {n : Nat} {p q : Failure} {route : List Turn}
    (get : alternatives[n]? = some p) (leads : Leads p route q) :
    Leads (.notUnion alternatives) (.alternative n :: route) q

/-- Whether a failure holds no other. -/
def IsLeaf : Failure → Prop
  | .invalidElement _ _ => False
  | .invalidKey _ => False
  | .notUnion (_ :: _) => False
  | _ => True

end Failure

/-- Whether one route is to the left of another: they part at a union, where it takes the earlier
alternative. -/
inductive LeftOf : List Turn → List Turn → Prop where
  | parts {m n : Nat} (lt : m < n) (r s : List Turn) :
    LeftOf (.alternative m :: r) (.alternative n :: s)
  | cons (turn : Turn) {r s : List Turn} (left : LeftOf r s) : LeftOf (turn :: r) (turn :: s)

theorem LeftOf.irrefl (r : List Turn) : ¬ LeftOf r r := by
  induction r with
  | nil => intro h; cases h
  | cons turn r ih =>
    intro h
    cases h with
    | parts lt => exact Nat.lt_irrefl _ lt
    | cons _ left => exact ih left

/-- A leaf of a failure and the route to it. -/
structure Leaf where
  route : List Turn
  failure : Failure

/-- A leaf and the route to it from one turn further up. -/
def Leaf.after (turn : Turn) (leaf : Leaf) : Leaf := ⟨turn :: leaf.route, leaf.failure⟩

/-! ## Leaves -/

mutual

/-- The leaves of a failure, from left to right. -/
def Failure.leaves : Failure → List Leaf
  | .invalidElement segment inner => inner.leaves.map (.after (.element segment))
  | .invalidKey inner => inner.leaves.map (.after .key)
  | .notUnion (first :: rest) =>
    first.leaves.map (.after (.alternative 0)) ++ Failure.leavesFrom 1 rest
  | failure => [⟨[], failure⟩]

/-- The leaves of alternatives that are numbered from a given one. -/
def Failure.leavesFrom (n : Nat) : List Failure → List Leaf
  | [] => []
  | failure :: rest =>
    failure.leaves.map (.after (.alternative n)) ++ Failure.leavesFrom (n + 1) rest

end

namespace Failure

theorem leavesFrom_eq_flatMap (n : Nat) (alternatives : List Failure) :
    leavesFrom n alternatives =
      (alternatives.zipIdx n).flatMap fun e => e.1.leaves.map (.after (.alternative e.2)) := by
  induction alternatives generalizing n with
  | nil => rfl
  | cons first rest ih => rw [leavesFrom, ih, List.zipIdx_cons, List.flatMap_cons]

/-- What is read off leaves without regard to the alternative that they are under. -/
theorem map_leavesFrom {β : Type} {f : Leaf → β}
    (hf : ∀ leaf n, f (leaf.after (.alternative n)) = f leaf) (n : Nat)
    (alternatives : List Failure) :
    (leavesFrom n alternatives).map f = alternatives.flatMap fun p => p.leaves.map f := by
  induction alternatives generalizing n with
  | nil => rfl
  | cons first rest ih =>
    have hfirst : f ∘ Leaf.after (.alternative n) = f := funext fun leaf => hf leaf n
    rw [leavesFrom, List.map_append, ih, List.map_map, hfirst, List.flatMap_cons]

theorem leaves_notUnion {alternatives : List Failure} (h : alternatives ≠ []) :
    (notUnion alternatives).leaves = leavesFrom 0 alternatives := by
  cases alternatives with
  | nil => exact absurd rfl h
  | cons first rest => rfl

theorem leaves_of_isLeaf {p : Failure} (h : p.IsLeaf) : p.leaves = [⟨[], p⟩] := by
  cases p with
  | invalidElement | invalidKey => exact h.elim
  | notUnion alternatives => cases alternatives with
    | nil => rfl
    | cons first rest => exact h.elim
  | _ => rfl

/-- Induction on failures, with one case for all leaves. -/
theorem leafInduction {motive : Failure → Prop} (leaf : ∀ p, p.IsLeaf → motive p)
    (union : ∀ alternatives, alternatives ≠ [] → (∀ p ∈ alternatives, motive p) →
      motive (.notUnion alternatives))
    (key : ∀ inner, motive inner → motive (.invalidKey inner))
    (element : ∀ segment inner, motive inner → motive (.invalidElement segment inner))
    (p : Failure) : motive p := by
  induction p with
  | notUnion alternatives ih =>
    by_cases h : alternatives = []
    · exact h ▸ leaf _ trivial
    · exact union alternatives h ih
  | invalidKey inner ih => exact key inner ih
  | invalidElement segment inner ih => exact element segment inner ih
  | _ => exact leaf _ trivial

theorem leads_of_mem_leaves {p : Failure} {leaf : Leaf} (h : leaf ∈ p.leaves) :
    p.Leads leaf.route leaf.failure ∧ leaf.failure.IsLeaf := by
  induction p using leafInduction generalizing leaf with
  | leaf p hp =>
    rw [leaves_of_isLeaf hp] at h
    obtain rfl := List.mem_singleton.mp h
    exact ⟨.here p, hp⟩
  | union alternatives hn ih =>
    rw [leaves_notUnion hn, leavesFrom_eq_flatMap] at h
    obtain ⟨⟨p, n⟩, hp, hmem⟩ := List.mem_flatMap.mp h
    obtain ⟨l, hl, rfl⟩ := List.mem_map.mp hmem
    have hget : alternatives[n]? = some p := List.mem_zipIdx_iff_getElem?.mp hp
    obtain ⟨hleads, hleaf⟩ := ih p (List.mem_of_getElem? hget) hl
    exact ⟨.alternative hget hleads, hleaf⟩
  | key inner ih =>
    obtain ⟨l, hl, rfl⟩ := List.mem_map.mp h
    exact ⟨.key (ih hl).1, (ih hl).2⟩
  | element segment inner ih =>
    obtain ⟨l, hl, rfl⟩ := List.mem_map.mp h
    exact ⟨.element (ih hl).1, (ih hl).2⟩

theorem mem_leaves_of_leads {p q : Failure} {route : List Turn} (h : p.Leads route q)
    (hq : q.IsLeaf) : ⟨route, q⟩ ∈ p.leaves := by
  induction h with
  | here q =>
    rw [leaves_of_isLeaf hq]
    exact List.mem_singleton_self _
  | element _ ih => exact List.mem_map_of_mem (f := Leaf.after _) (ih hq)
  | key _ ih => exact List.mem_map_of_mem (f := Leaf.after _) (ih hq)
  | @alternative alternatives n p q route hget _ ih =>
    have hn : alternatives ≠ [] := List.ne_nil_of_mem (List.mem_of_getElem? hget)
    rw [leaves_notUnion hn, leavesFrom_eq_flatMap]
    have hp : (p, n) ∈ alternatives.zipIdx := List.mem_zipIdx_iff_getElem?.mpr hget
    exact List.mem_flatMap.mpr ⟨_, hp, List.mem_map_of_mem (f := Leaf.after _) (ih hq)⟩

/-- The leaves of a failure are where the routes through it end. -/
theorem mem_leaves_iff {p : Failure} {leaf : Leaf} :
    leaf ∈ p.leaves ↔ p.Leads leaf.route leaf.failure ∧ leaf.failure.IsLeaf :=
  ⟨leads_of_mem_leaves, fun h => mem_leaves_of_leads h.1 h.2⟩

/-- Every leaf is to the left of those that come after it. -/
theorem leaves_pairwise_leftOf (p : Failure) :
    p.leaves.Pairwise fun a b => LeftOf a.route b.route := by
  have hafter (turn : Turn) {leaves : List Leaf}
      (h : leaves.Pairwise fun a b => LeftOf a.route b.route) :
      (leaves.map (Leaf.after turn)).Pairwise fun a b => LeftOf a.route b.route :=
    List.pairwise_map.mpr (h.imp (.cons turn))
  induction p using leafInduction with
  | leaf p hp =>
    rw [leaves_of_isLeaf hp]
    exact List.pairwise_singleton _ _
  | union alternatives hn ih =>
    rw [leaves_notUnion hn, leavesFrom_eq_flatMap, List.pairwise_flatMap]
    constructor
    · rintro ⟨p, n⟩ hp
      have hget : alternatives[n]? = some p := List.mem_zipIdx_iff_getElem?.mp hp
      exact hafter _ (ih p (List.mem_of_getElem? hget))
    · have hlt : (alternatives.zipIdx.map Prod.snd).Pairwise (· < ·) := by
        rw [List.zipIdx_map_snd]
        exact List.pairwise_lt_range'
      refine (List.pairwise_map.mp hlt).imp fun hlt a ha b hb => ?_
      obtain ⟨_, -, rfl⟩ := List.mem_map.mp ha
      obtain ⟨_, -, rfl⟩ := List.mem_map.mp hb
      exact .parts hlt _ _
  | key inner ih => exact hafter _ ih
  | element segment inner ih => exact hafter _ ih

theorem leaves_nodup (p : Failure) : p.leaves.Nodup := by
  refine p.leaves_pairwise_leftOf.imp ?_
  rintro a b hleft rfl
  exact LeftOf.irrefl _ hleft

end Failure

/-! ## Issues -/

/-- An issue of a part that is reached by steps, as one of the whole. -/
def Issue.under (front : List Segment) (issue : Issue) : Issue :=
  { issue with location := ⟨front ++ issue.location.segments⟩ }

theorem Issue.under_under (issue : Issue) (front back : List Segment) :
    (issue.under back).under front = issue.under (front ++ back) := by
  simp only [under, List.append_assoc]

namespace Leaf

/-- Where a leaf is located: after the steps of its route, and a missing field at itself. -/
def location (leaf : Leaf) : Location :=
  ⟨leaf.route.filterMap Turn.segment? ++
    match leaf.failure with
    | .notFound name => [.field name]
    | _ => []⟩

/-- The message of a leaf, with one mark for every key on its route. -/
def message (leaf : Leaf) : String :=
  String.join (List.replicate (leaf.route.count .key) "invalid key: ") ++ leaf.failure.text

/-- The issue of a leaf. -/
def issue (leaf : Leaf) : Issue :=
  ⟨leaf.location, leaf.message, leaf.failure.gotNote, leaf.failure.expectedNote,
    leaf.failure.code⟩

theorem issue_after_element (leaf : Leaf) (segment : Segment) :
    (leaf.after (.element segment)).issue = leaf.issue.under [segment] := rfl

theorem issue_after_alternative (leaf : Leaf) (n : Nat) :
    (leaf.after (.alternative n)).issue = leaf.issue := rfl

theorem issue_after_key (leaf : Leaf) : (leaf.after .key).issue = Failure.aboutKey leaf.issue := by
  have hmessage : (leaf.after .key).message = "invalid key: " ++ leaf.message := by
    show String.join (List.replicate ((Turn.key :: leaf.route).count .key) "invalid key: ") ++
      leaf.failure.text = _
    rw [List.count_cons_self, List.replicate_succ, String.join_cons, String.append_assoc]
    rfl
  show (⟨leaf.location, (leaf.after .key).message, _, _, _⟩ : Issue) = _
  rw [hmessage]
  rfl

end Leaf

namespace Failure

theorem reportAt_of_isLeaf {p : Failure} (h : p.IsLeaf) (location : Location) :
    (p.reportAt location).toList = [(Leaf.issue ⟨[], p⟩).under location.segments] := by
  have hmessage : (Leaf.message ⟨[], p⟩) = p.text := String.empty_append
  have hissue : Leaf.issue ⟨[], p⟩ =
      ⟨Leaf.location ⟨[], p⟩, p.text, p.gotNote, p.expectedNote, p.code⟩ := by
    rw [Leaf.issue, hmessage]
  rw [hissue]
  cases p with
  | invalidElement | invalidKey => exact h.elim
  | notFound name => rfl
  | notUnion alternatives => cases alternatives with
    | nil =>
      have hfallback : (notUnion []).reportAt location =
          .single ((notUnion []).issue location) := rfl
      simp [hfallback, issue, Issue.under, Leaf.location]
    | cons first rest => exact h.elim
  | _ => simp [reportAt, issue, Issue.under, Leaf.location]

/-- The issues of a failure of the part at a location. -/
theorem toList_reportAt (p : Failure) (location : Location) :
    (p.reportAt location).toList = p.leaves.map fun leaf => leaf.issue.under location.segments := by
  induction p using leafInduction generalizing location with
  | leaf p hp =>
    rw [reportAt_of_isLeaf hp, leaves_of_isLeaf hp]
    rfl
  | union alternatives hn ih =>
    rw [toList_reportAt_notUnion hn, issuesAt_eq_flatMap, leaves_notUnion hn,
      map_leavesFrom fun leaf n => by rw [leaf.issue_after_alternative]]
    exact List.flatMap_congr fun p hp => ih p hp location
  | key inner ih =>
    rw [toList_reportAt_invalidKey, ih, leaves, List.map_map, List.map_map]
    refine List.map_congr_left fun leaf _ => ?_
    show aboutKey (leaf.issue.under location.segments) =
      (leaf.after .key).issue.under location.segments
    rw [leaf.issue_after_key]
    rfl
  | element segment inner ih =>
    show (inner.reportAt (location.push segment)).toList = _
    rw [ih, leaves, List.map_map]
    refine List.map_congr_left fun leaf _ => ?_
    show leaf.issue.under (location.segments ++ [segment]) =
      (leaf.after (.element segment)).issue.under location.segments
    rw [leaf.issue_after_element, Issue.under_under]

theorem toList_report (p : Failure) : p.report.toList = p.leaves.map Leaf.issue :=
  p.toList_reportAt .root

/-- A failure of a part has the issues of that failure, one step further away. -/
theorem toList_report_invalidElement (segment : Segment) (p : Failure) :
    (invalidElement segment p).report.toList = p.report.toList.map (.under [segment]) := by
  rw [toList_report, toList_report, leaves, List.map_map, List.map_map]
  rfl

/-- A rejected key has the issues of its failure, marked as issues about a key. -/
theorem toList_report_invalidKey (p : Failure) :
    (invalidKey p).report.toList = p.report.toList.map aboutKey :=
  toList_reportAt_invalidKey .root p

/-- A failed union has the issues of all its alternatives. -/
theorem toList_report_notUnion {alternatives : List Failure} (h : alternatives ≠ []) :
    (notUnion alternatives).report.toList = alternatives.flatMap fun p => p.report.toList := by
  rw [report, toList_reportAt_notUnion h, issuesAt_eq_flatMap]
  rfl

/-- A report has one issue for every leaf of its failure, in the order of the leaves, and so its parts
are the reports of the parts of the failure. -/
theorem report_lists_leaves (p : Failure) :
    (∀ leaf : Leaf, leaf ∈ p.leaves ↔ p.Leads leaf.route leaf.failure ∧ leaf.failure.IsLeaf) ∧
      p.leaves.Nodup ∧ (p.leaves.Pairwise fun a b => LeftOf a.route b.route) ∧
      p.report.toList = p.leaves.map Leaf.issue ∧
      p.report.toList ≠ [] ∧
      (∀ segment, (invalidElement segment p).report.toList =
        p.report.toList.map (.under [segment])) ∧
      ∀ first rest, (notUnion (first :: rest)).report.toList =
        (first :: rest).flatMap fun q => q.report.toList := by
  refine ⟨fun leaf => mem_leaves_iff, p.leaves_nodup, p.leaves_pairwise_leftOf, p.toList_report,
    p.report.toList_ne_nil, ?_, ?_⟩
  · intro segment
    exact toList_report_invalidElement segment p
  · intro first rest
    exact toList_report_notUnion (List.cons_ne_nil first rest)

end Failure

end JsonValidation
