import Mathlib.Data.List.SplitBy
import JsonValidation.Location

/-!
# Reading locations

The text of a location is made of pieces, one for each segment. A piece starts with a mark, a point
or an opening bracket, and has no other mark in it if its name has none; only the point of the first
piece is not written. So the text can be cut into the pieces again, and each piece can be read by
itself.

* `Segment.ofPiece?`: the segment of a piece;
* `Location.ofText?`: the location of a text;
* `Location.IsPlain`: the locations without marks in names and without empty names;
* `Location.ofText?_eq_some_iff`: reading gives a location exactly for the texts of plain ones;
* `Location.text_identifies`: plain locations with one text are the same.
-/

namespace JsonValidation

namespace Segment

/-- Whether a character starts a piece of the text of a location. -/
def isMark (c : Char) : Bool := c = '.' || c = '['

/-- Whether a segment can be read back: a name is not empty and has no mark in it, and a position is
not restricted. -/
def IsPlain : Segment → Prop
  | .field name => name ≠ "" ∧ '.' ∉ name.toList ∧ '[' ∉ name.toList
  | .index _ => True

instance decidableIsPlain : (segment : Segment) → Decidable segment.IsPlain
  | .field name => inferInstanceAs (Decidable (name ≠ "" ∧ '.' ∉ name.toList ∧ '[' ∉ name.toList))
  | .index _ => isTrue trivial

/-- The piece of a segment: a mark, and what the segment is up to the next mark. -/
def piece : Segment → List Char
  | .field name => '.' :: name.toList
  | .index n => '[' :: (Nat.toDigits 10 n ++ [']'])

/-- The segment of a piece. A position has to be spelled as its text spells it, without zeros before
it. -/
def ofPiece? : List Char → Option Segment
  | '.' :: name => if name = [] then none else some (.field (String.ofList name))
  | '[' :: rest =>
    let n := Nat.ofDigitChars 10 rest.dropLast 0
    if rest = Nat.toDigits 10 n ++ [']'] then some (.index n) else none
  | _ => none

theorem ofPiece?_eq_some_iff {chars : List Char} {segment : Segment} :
    ofPiece? chars = some segment ↔ chars = segment.piece ∧ segment ≠ .field "" := by
  constructor
  · intro h
    unfold ofPiece? at h
    split at h
    · split at h
      · cases h
      · rename_i name hname
        obtain rfl := Option.some.inj h
        refine ⟨by rw [piece, String.toList_ofList], fun he => hname ?_⟩
        simpa using he
    · dsimp only at h
      split at h
      · rename_i rest hrest
        obtain rfl := Option.some.inj h
        exact ⟨congrArg ('[' :: ·) hrest, nofun⟩
      · cases h
    · cases h
  · rintro ⟨rfl, hname⟩
    cases segment with
    | field name =>
      have hne : name.toList ≠ [] := fun h => hname (by rw [String.toList_eq_nil_iff.mp h])
      rw [piece, ofPiece?, if_neg hne, String.ofList_toList]
    | index n =>
      rw [piece, ofPiece?]
      simp only [List.dropLast_concat, Nat.ofDigitChars_ten_toDigits, if_true]

theorem mapM_ofPiece?_eq_some_iff {pieces : List (List Char)} {segments : List Segment} :
    pieces.mapM ofPiece? = some segments ↔
      pieces = segments.map piece ∧ ∀ segment ∈ segments, segment ≠ .field "" := by
  induction pieces generalizing segments with
  | nil => cases segments <;> simp
  | cons chars rest ih =>
    cases segments with
    | nil => simp [List.mapM_cons, Option.bind_eq_some_iff]
    | cons segment segments =>
      have hcons : (chars :: rest).mapM ofPiece? = some (segment :: segments) ↔
          ofPiece? chars = some segment ∧ rest.mapM ofPiece? = some segments := by
        rw [List.mapM_cons]
        cases ofPiece? chars <;> cases rest.mapM ofPiece? <;> simp
      rw [hcons, ih, ofPiece?_eq_some_iff, List.map_cons, List.cons.injEq, List.forall_mem_cons,
        and_and_and_comm]

theorem piece_ne_nil (segment : Segment) : segment.piece ≠ [] := by
  cases segment <;> exact List.cons_ne_nil _ _

theorem isMark_head_piece (segment : Segment) (h : segment.piece ≠ []) :
    isMark (segment.piece.head h) = true := by
  cases segment <;> rfl

theorem isMark_of_mem_toDigits {n : Nat} {c : Char} (h : c ∈ Nat.toDigits 10 n) :
    isMark c = false := by
  have hdigit : c.isDigit = true := Nat.isDigit_of_mem_toDigits (by decide) (by decide) h
  have hpoint : c ≠ '.' := by
    rintro rfl
    cases hdigit
  have hbracket : c ≠ '[' := by
    rintro rfl
    cases hdigit
  simp [isMark, hpoint, hbracket]

theorem isPlain_iff {segment : Segment} :
    segment.IsPlain ↔ segment ≠ .field "" ∧ ∀ c ∈ segment.piece.tail, isMark c = false := by
  cases segment with
  | field name =>
    have hmark : (∀ c ∈ name.toList, isMark c = false) ↔
        '.' ∉ name.toList ∧ '[' ∉ name.toList := by
      simp only [isMark, Bool.or_eq_false_iff, decide_eq_false_iff_not]
      constructor
      · exact fun h => ⟨fun hc => (h _ hc).1 rfl, fun hc => (h _ hc).2 rfl⟩
      · exact fun h c hc => ⟨fun e => h.1 (e ▸ hc), fun e => h.2 (e ▸ hc)⟩
    rw [IsPlain, piece, List.tail_cons, hmark, ne_eq, ne_eq, Segment.field.injEq]
  | index n =>
    refine iff_of_true trivial ⟨nofun, fun c hc => ?_⟩
    rcases List.mem_append.mp hc with hc | hc
    · exact isMark_of_mem_toDigits hc
    · obtain rfl := List.mem_singleton.mp hc
      rfl

end Segment

namespace Location

/-- Whether all segments of a location can be read back. -/
def IsPlain (location : Location) : Prop := ∀ segment ∈ location.segments, segment.IsPlain

instance decidableIsPlain (location : Location) : Decidable location.IsPlain :=
  inferInstanceAs (Decidable (∀ segment ∈ location.segments, segment.IsPlain))

/-! ## Cutting a text into pieces -/

/-- Cuts a text before each mark. -/
def pieces (chars : List Char) : List (List Char) := chars.splitBy fun _ c => !Segment.isMark c

/-- Writes the point of a name that comes first. -/
def dotted : List Char → List Char
  | [] => []
  | '[' :: rest => '[' :: rest
  | chars => '.' :: chars

/-- Leaves out a point that comes first. -/
def undotted : List Char → List Char
  | '.' :: rest => rest
  | chars => chars

/-- The location that a text spells. -/
def ofText? (text : String) : Option Location :=
  ((pieces (dotted text.toList)).mapM Segment.ofPiece?).map Location.mk

theorem isChain_piece_iff {mark : Char} {rest : List Char} :
    (mark :: rest).IsChain (fun _ c => (!Segment.isMark c) = true) ↔
      ∀ c ∈ rest, Segment.isMark c = false := by
  induction rest generalizing mark with
  | nil => simp
  | cons c rest ih => rw [List.isChain_cons_cons, ih, List.forall_mem_cons, Bool.not_eq_true']

/-- The pieces of segments put together are cut into just these again if no piece has a mark in it.
-/
theorem pieces_eq_map_iff {chars : List Char} {segments : List Segment} :
    pieces chars = segments.map Segment.piece ↔
      chars = (segments.map Segment.piece).flatten ∧
        ∀ segment ∈ segments, ∀ c ∈ segment.piece.tail, Segment.isMark c = false := by
  have hnil : [] ∉ segments.map Segment.piece := by
    rw [List.mem_map]
    rintro ⟨segment, -, h⟩
    exact segment.piece_ne_nil h
  have hchain : (∀ chars ∈ segments.map Segment.piece,
      chars.IsChain fun _ c => (!Segment.isMark c) = true) ↔
        ∀ segment ∈ segments, ∀ c ∈ segment.piece.tail, Segment.isMark c = false := by
    rw [List.forall_mem_map]
    refine forall_congr' fun segment => forall_congr' fun _ => ?_
    cases segment <;> exact isChain_piece_iff
  -- Each piece starts with a mark, so the text is cut between any two of them.
  have hcut : (segments.map Segment.piece).IsChain fun a b =>
      ∃ (_ : a ≠ []) (hb : b ≠ []), (!Segment.isMark (b.head hb)) = false := by
    refine (List.pairwise_of_forall_mem_list fun a ha b hb => ?_).isChain
    obtain ⟨first, -, rfl⟩ := List.mem_map.mp ha
    obtain ⟨second, -, rfl⟩ := List.mem_map.mp hb
    refine ⟨first.piece_ne_nil, second.piece_ne_nil, ?_⟩
    rw [Segment.isMark_head_piece, Bool.not_true]
  rw [pieces, List.splitBy_eq_iff, hchain]
  exact ⟨fun h => ⟨h.1, h.2.2.1⟩, fun h => ⟨h.1, hnil, h.2, hcut⟩⟩

/-! ## The text of a location by pieces -/

theorem toList_tailText (segments : List Segment) :
    (tailText segments).toList = (segments.map Segment.piece).flatten := by
  induction segments with
  | nil => rfl
  | cons segment rest ih =>
    cases segment with
    | field name => simp [tailText, Segment.piece, ih]
    | index n => simp [tailText, Segment.text, Segment.piece, ih]

theorem toList_text (location : Location) :
    location.text.toList = undotted (location.segments.map Segment.piece).flatten := by
  obtain ⟨segments⟩ := location
  cases segments with
  | nil => rfl
  | cons segment rest =>
    rw [List.map_cons, List.flatten_cons, ← toList_tailText]
    cases segment with
    | field name => simp [text, Segment.text, Segment.piece, undotted]
    | index n => simp [text, Segment.text, Segment.piece, undotted]

theorem undotted_dotted (chars : List Char) : undotted (dotted chars) = chars := by
  unfold dotted
  split <;> rfl

theorem dotted_toList_text {location : Location} (h : location.IsPlain) :
    dotted location.text.toList = (location.segments.map Segment.piece).flatten := by
  rw [toList_text]
  obtain ⟨segments⟩ := location
  cases segments with
  | nil => rfl
  | cons segment rest =>
    have hsegment : segment.IsPlain := h segment List.mem_cons_self
    rw [List.map_cons, List.flatten_cons]
    cases segment with
    | field name =>
      obtain ⟨hne, -, hbracket⟩ := hsegment
      rw [Segment.piece, List.cons_append, undotted]
      rw [← String.toList_eq_nil_iff.ne] at hne
      obtain ⟨c, cs, hname⟩ := List.exists_cons_of_ne_nil hne
      have hc : c ≠ '[' := by
        rintro rfl
        exact hbracket (hname ▸ List.mem_cons_self)
      rw [hname, List.cons_append]
      unfold dotted
      split <;> simp_all
    | index n => rfl

/-! ## Reading the text of a location -/

theorem ofText?_eq_some_iff_mapM {text : String} {location : Location} :
    ofText? text = some location ↔
      (pieces (dotted text.toList)).mapM Segment.ofPiece? = some location.segments := by
  obtain ⟨segments⟩ := location
  rw [ofText?, Option.map_eq_some_iff]
  simp only [mk.injEq, exists_eq_right]

theorem isPlain_iff {location : Location} :
    location.IsPlain ↔ (∀ segment ∈ location.segments, segment ≠ .field "") ∧
      ∀ segment ∈ location.segments, ∀ c ∈ segment.piece.tail, Segment.isMark c = false := by
  simp only [IsPlain, Segment.isPlain_iff, forall_and]

/-- A text spells a location exactly if it is the text of the location and the location is plain. -/
theorem ofText?_eq_some_iff {text : String} {location : Location} :
    ofText? text = some location ↔ location.IsPlain ∧ location.text = text := by
  rw [ofText?_eq_some_iff_mapM, Segment.mapM_ofPiece?_eq_some_iff, pieces_eq_map_iff]
  constructor
  · rintro ⟨⟨hpieces, hmarks⟩, hnames⟩
    refine ⟨isPlain_iff.mpr ⟨hnames, hmarks⟩, String.toList_injective ?_⟩
    rw [toList_text, ← hpieces, undotted_dotted]
  · rintro ⟨hplain, rfl⟩
    obtain ⟨hnames, hmarks⟩ := isPlain_iff.mp hplain
    exact ⟨⟨dotted_toList_text hplain, hmarks⟩, hnames⟩

theorem ofText?_text {location : Location} (h : location.IsPlain) :
    ofText? location.text = some location :=
  ofText?_eq_some_iff.mpr ⟨h, rfl⟩

theorem text_inj {p q : Location} (hp : p.IsPlain) (hq : q.IsPlain) : p.text = q.text ↔ p = q := by
  refine ⟨fun h => ?_, congrArg text⟩
  have hread := ofText?_text hp
  rw [h, ofText?_text hq] at hread
  exact (Option.some.inj hread).symm

theorem isPlain_root : root.IsPlain := fun _ h => absurd h List.not_mem_nil

/-- Plain locations with one text are the same, and reading gives a plain location back from its
text and from no other. The empty text is that of the root alone. -/
theorem text_identifies {p q : Location} (hp : p.IsPlain) (hq : q.IsPlain) :
    (p.text = q.text ↔ p = q) ∧ (∀ s, ofText? s = some p ↔ s = p.text) ∧
      (p.text = "" ↔ p = root) := by
  refine ⟨text_inj hp hq, fun s => ?_, ?_⟩
  · rw [ofText?_eq_some_iff, and_iff_right hp, eq_comm]
  · rw [← text_root, text_inj hp isPlain_root]

/-- A name that looks like the end of a position, and a name of digits. -/
def bracketed : Location := ⟨[.field "a]", .index 10, .field "2"]⟩

/-- The same with a position for each digit of the position. -/
def bracketedTwice : Location := ⟨[.field "a]", .index 1, .index 0, .field "2"]⟩

theorem text_identifies_bracketed :
    bracketed.IsPlain ∧ bracketedTwice.IsPlain ∧ bracketed.text ≠ bracketedTwice.text ∧
      ofText? "a][10].2" = some bracketed ∧ bracketed.text ≠ "" := by
  have hp : bracketed.IsPlain := by decide
  have hq : bracketedTwice.IsPlain := by decide
  obtain ⟨hinj, hread, hroot⟩ := text_identifies hp hq
  refine ⟨hp, hq, mt hinj.mp (by decide), (hread _).mpr rfl, mt hroot.mp (by decide)⟩

end Location

end JsonValidation
