/-
Purpose: Texts with marked spans that are read in chunks: how a reader that reports the
  spans piece by piece, chunk after chunk, divides them.
-/
import Mathlib.Algebra.GroupWithZero.Nat
import Mathlib.Data.List.Basic
import Mathlib.Tactic.Common

namespace Crouton.Lib

/-- A part of a text: a span of some kind, or what stands between spans. -/
inductive Part (Kind Symbol : Type) where
  | plain (text : List Symbol)
  | span (kind : Kind) (text : List Symbol)
deriving DecidableEq

def Part.text {Kind Symbol : Type} : Part Kind Symbol → List Symbol
  | plain text => text
  | span _ text => text

namespace Spans

variable {Kind Symbol : Type}

/-! ### Texts, spans and places -/

def textOf (parts : List (Part Kind Symbol)) : List Symbol := parts.flatMap Part.text

def spansOf : List (Part Kind Symbol) → List (Kind × List Symbol)
  | [] => []
  | .plain _ :: parts => spansOf parts
  | .span kind text :: parts => (kind, text) :: spansOf parts

/-- Where each span starts and stops, if the parts start at some place. -/
def extents (start : Nat) : List (Part Kind Symbol) → List (Nat × Nat)
  | [] => []
  | .plain text :: parts => extents (start + text.length) parts
  | .span _ text :: parts => (start, start + text.length) :: extents (start + text.length) parts

/-- Where chunks of some sizes end, if the first starts at some place. -/
def cuts (start : Nat) : List Nat → List Nat
  | [] => []
  | size :: sizes => (start + size) :: cuts (start + size) sizes

/-! ### The reader -/

/-- What a reader makes of the next chunk: the parts that are left, and the pieces of
spans that it reports.  A reader that `closes` its spans finds the end of a span at the
symbol after it; if that is in the next chunk then it reports an empty piece there. -/
def scan (closes : Bool) :
    List (Part Kind Symbol) → Nat → List (Part Kind Symbol) × List (Kind × List Symbol)
  | [], _ => ([], [])
  | .plain text :: parts, size =>
    if size < text.length then (.plain (text.drop size) :: parts, [])
    else scan closes parts (size - text.length)
  | .span kind text :: parts, size =>
    if size = 0 then (.span kind text :: parts, [])
    else if size < text.length then
      (.span kind (text.drop size) :: parts, [(kind, text.take size)])
    else if size = text.length ∧ closes = true then
      (.span kind [] :: parts, [(kind, text)])
    else
      let (rest, pieces) := scan closes parts (size - text.length)
      (rest, (kind, text) :: pieces)

/-- The pieces that the reader reports for each of some chunks. -/
def reports (closes : Bool) : List (Part Kind Symbol) → List Nat → List (List (Kind × List Symbol))
  | _, [] => []
  | parts, size :: sizes =>
    (scan closes parts size).2 :: reports closes (scan closes parts size).1 sizes

/-! ### Whole and divided spans -/

/-- A cut is past the end of a span, or at its end if spans are not closed. -/
def Passes (closes : Bool) (stop cut : Nat) : Prop :=
  if closes = true then stop < cut else stop ≤ cut

/-- Every cut that is after the start of a span is past its end. -/
def AlignedFrom (closes : Bool) (start : Nat) (parts : List (Part Kind Symbol))
    (places : List Nat) : Prop :=
  ∀ extent ∈ extents start parts, ∀ cut ∈ places, extent.1 < cut → Passes closes extent.2 cut

/-- No chunk ends inside a span. -/
def Aligned (closes : Bool) (parts : List (Part Kind Symbol)) (sizes : List Nat) : Prop :=
  AlignedFrom closes 0 parts (cuts 0 sizes)

instance (closes : Bool) (stop cut : Nat) : Decidable (Passes closes stop cut) := by
  unfold Passes
  infer_instance

instance (closes : Bool) (parts : List (Part Kind Symbol)) (sizes : List Nat) :
    Decidable (Aligned closes parts sizes) := by
  unfold Aligned AlignedFrom
  infer_instance

/-- Pieces that are the spans, each in one piece or divided in consecutive ones. -/
inductive Divided : List (Kind × List Symbol) → List (Kind × List Symbol) → Prop where
  | nil : Divided [] []
  | whole {spans pieces : List (Kind × List Symbol)} (kind : Kind) (text : List Symbol)
      (rest : Divided spans pieces) : Divided ((kind, text) :: spans) ((kind, text) :: pieces)
  | part {spans pieces : List (Kind × List Symbol)} (kind : Kind) (first text : List Symbol)
      (nonempty : first ≠ []) (rest : Divided ((kind, text) :: spans) pieces) :
      Divided ((kind, first ++ text) :: spans) ((kind, first) :: pieces)

namespace Divided

variable {spans pieces : List (Kind × List Symbol)}

theorem length_le (divided : Divided spans pieces) : spans.length ≤ pieces.length := by
  induction divided with
  | nil => exact Nat.le_refl 0
  | whole _ _ _ ih => exact Nat.succ_le_succ ih
  | part _ _ _ _ _ ih => exact Nat.le_succ_of_le ih

/-- The pieces of the first span, and those of the others.  The span is in one piece, or
the last piece is shorter. -/
theorem cons_inv {kind : Kind} {text : List Symbol}
    (divided : Divided ((kind, text) :: spans) pieces) :
    ∃ (earlier : List (List Symbol)) (last : List Symbol) (others : List (Kind × List Symbol)),
      pieces = earlier.map (Prod.mk kind) ++ (kind, last) :: others ∧ Divided spans others ∧
      (earlier = [] ∧ last = text ∨ earlier ≠ [] ∧ last.length < text.length) := by
  generalize isAll : (kind, text) :: spans = all at divided
  induction divided generalizing text with
  | nil => cases isAll
  | whole _ _ rest =>
    cases isAll
    exact ⟨[], _, _, rfl, rest, .inl ⟨rfl, rfl⟩⟩
  | part _ first text nonempty _ ih =>
    cases isAll
    obtain ⟨earlier, last, others, rfl, dividesOthers, size⟩ := ih rfl
    have longer : text.length < (first ++ text).length := by
      rw [List.length_append]
      exact Nat.lt_add_of_pos_left (List.length_pos_of_ne_nil nonempty)
    refine ⟨first :: earlier, last, others, rfl, dividesOthers, .inr ⟨nofun, ?_⟩⟩
    rcases size with ⟨_, rfl⟩ | ⟨_, shorter⟩
    · exact longer
    · exact Nat.lt_trans shorter longer

end Divided

/-! ### Places -/

variable {start size cut : Nat} {parts : List (Part Kind Symbol)} {extent : Nat × Nat}
  {sizes places : List Nat} {closes : Bool} {kind : Kind} {text : List Symbol}
  {pieces : List (Kind × List Symbol)}

theorem le_of_mem_extents (member : extent ∈ extents start parts) : start ≤ extent.1 := by
  induction parts generalizing start with
  | nil => cases member
  | cons part parts ih =>
    cases part with
    | plain => exact Nat.le_trans (Nat.le_add_right _ _) (ih member)
    | span =>
      rcases List.mem_cons.mp member with rfl | later
      · exact Nat.le_refl _
      · exact Nat.le_trans (Nat.le_add_right _ _) (ih later)

theorem mem_extents_le (member : extent ∈ extents start parts) :
    extent.2 ≤ start + (textOf parts).length := by
  induction parts generalizing start with
  | nil => cases member
  | cons part parts ih =>
    have size : (textOf (part :: parts)).length = part.text.length + (textOf parts).length :=
      List.length_append
    rw [size, ← Nat.add_assoc]
    cases part with
    | plain => exact ih member
    | span =>
      rcases List.mem_cons.mp member with rfl | later
      · exact Nat.le_add_right _ _
      · exact ih later

/-- A single chunk with all of the text. -/
theorem aligned_whole (closes : Bool) (enough : (textOf parts).length < size) :
    Aligned closes parts [size] := by
  intro extent member cut isCut _
  obtain rfl := List.mem_singleton.mp isCut
  have stops := mem_extents_le member
  unfold Passes
  split
  · omega
  · omega

theorem le_of_mem_cuts (member : cut ∈ cuts start sizes) : start ≤ cut := by
  induction sizes generalizing start with
  | nil => cases member
  | cons size sizes ih =>
    rcases List.mem_cons.mp member with rfl | later
    · exact Nat.le_add_right _ _
    · exact Nat.le_trans (Nat.le_add_right _ _) (ih later)

/-- A cut before all of the spans does not matter. -/
theorem alignedFrom_cons_iff (before : cut ≤ start) :
    AlignedFrom closes start parts (cut :: places) ↔ AlignedFrom closes start parts places := by
  refine ⟨fun aligned extent member place isPlace => ?_,
    fun aligned extent member place isPlace => ?_⟩
  · exact aligned extent member place (List.mem_cons_of_mem _ isPlace)
  · rcases List.mem_cons.mp isPlace with rfl | later
    · intro after
      have := le_of_mem_extents member
      exact absurd after (Nat.not_lt.mpr (Nat.le_trans before this))
    · exact aligned extent member place later

/-- A span that all of the cuts pass does not matter. -/
theorem alignedFrom_span_iff (passes : ∀ cut ∈ places, Passes closes (start + text.length) cut) :
    AlignedFrom closes start (.span kind text :: parts) places ↔
      AlignedFrom closes (start + text.length) parts places := by
  refine ⟨fun aligned extent member => aligned extent (List.mem_cons_of_mem _ member),
    fun aligned extent member => ?_⟩
  rcases List.mem_cons.mp member with rfl | later
  · exact fun cut isCut _ => passes cut isCut
  · exact aligned extent later

theorem passes_cuts {stop : Nat} (passes : Passes closes stop start) :
    ∀ cut ∈ start :: cuts start sizes, Passes closes stop cut := by
  intro cut member
  have reached : start ≤ cut := by
    rcases List.mem_cons.mp member with rfl | later
    · exact Nat.le_refl _
    · exact le_of_mem_cuts later
  unfold Passes at passes ⊢
  split at passes
  · grind
  · grind

/-! ### What is reported -/

theorem textOf_cons (part : Part Kind Symbol) (parts : List (Part Kind Symbol)) :
    textOf (part :: parts) = part.text ++ textOf parts := rfl

/-- The reader has divided the spans of some parts, and has divided none of them if no
cut was inside one. -/
structure Reported (closes : Bool) (start : Nat) (parts : List (Part Kind Symbol))
    (sizes : List Nat) (pieces : List (Kind × List Symbol)) : Prop where
  divided : Divided (spansOf parts) pieces
  whole_iff : pieces = spansOf parts ↔ AlignedFrom closes start parts (cuts start sizes)

/-- A divided span is not in one piece. -/
theorem Reported.of_divided {first : List Symbol} (nonempty : first ≠ [])
    (rest : Divided ((kind, text) :: spansOf parts) pieces) (inside : 0 < size)
    (stops : ¬ Passes closes (start + (first ++ text).length) (start + size)) :
    Reported closes start (.span kind (first ++ text) :: parts) (size :: sizes)
      ((kind, first) :: pieces) where
  divided := .part kind first text nonempty rest
  whole_iff := by
    refine ⟨fun same => ?_, fun aligned => absurd ?_ stops⟩
    · have longer := rest.length_le
      rw [List.length_cons] at longer
      have := congrArg List.length (List.cons.inj same).2
      omega
    · exact aligned (start, start + (first ++ text).length) List.mem_cons_self (start + size)
        List.mem_cons_self (Nat.lt_add_of_pos_right inside)

/-- A span in one piece, and the others. -/
theorem Reported.whole (covers : text.length ≤ size)
    (passes : Passes closes (start + text.length) (start + size))
    (rest : Reported closes (start + text.length) parts ((size - text.length) :: sizes) pieces) :
    Reported closes start (.span kind text :: parts) (size :: sizes) ((kind, text) :: pieces) where
  divided := .whole kind text rest.divided
  whole_iff := by
    have places : cuts (start + text.length) ((size - text.length) :: sizes) =
        cuts start (size :: sizes) := by
      have same : start + text.length + (size - text.length) = start + size := by omega
      rw [cuts, cuts, same]
    have aligned := rest.whole_iff
    rw [places] at aligned
    refine Iff.trans ?_ (alignedFrom_span_iff (passes_cuts passes)).symm
    exact (List.cons_inj_right _).trans aligned

theorem reports_cons (closes : Bool) (parts : List (Part Kind Symbol)) (size : Nat)
    (sizes : List Nat) :
    (reports closes parts (size :: sizes)).flatten =
      (scan closes parts size).2 ++ (reports closes (scan closes parts size).1 sizes).flatten := rfl

/-- Without parts there is nothing to report. -/
theorem reports_nil (closes : Bool) (sizes : List Nat) :
    (reports closes ([] : List (Part Kind Symbol)) sizes).flatten = [] := by
  induction sizes with
  | nil => rfl
  | cons size sizes ih => exact ih

section

-- The reader goes on as it should with the parts that are left after a chunk
variable {closes : Bool} {sizes : List Nat}
  (later : ∀ (start : Nat) (parts : List (Part Kind Symbol)),
    (textOf parts).length < sizes.sum →
      Reported closes start parts sizes (reports closes parts sizes).flatten)

include later

/-- A chunk that starts between two spans. -/
theorem reported_plain (start size : Nat) (text : List Symbol) (parts : List (Part Kind Symbol))
    (enough : text.length + (textOf parts).length < size + sizes.sum)
    (rest : text.length ≤ size →
      Reported closes (start + text.length) parts ((size - text.length) :: sizes)
        (reports closes parts ((size - text.length) :: sizes)).flatten) :
    Reported closes start (.plain text :: parts) (size :: sizes)
      (reports closes (.plain text :: parts) (size :: sizes)).flatten := by
  rw [reports_cons, scan]
  by_cases short : size < text.length
  · rw [if_pos short]
    obtain ⟨divided, whole_iff⟩ := later (start + size) (.plain (text.drop size) :: parts) (by
      rw [textOf_cons, List.length_append, Part.text, List.length_drop]
      omega)
    refine ⟨divided, whole_iff.trans ?_⟩
    have same : start + size + (text.drop size).length = start + text.length := by grind
    unfold AlignedFrom
    rw [extents, same]
    exact (alignedFrom_cons_iff (by omega)).symm
  · rw [if_neg short]
    have same : start + text.length + (size - text.length) = start + size := by omega
    obtain ⟨divided, whole_iff⟩ := rest (Nat.not_lt.mp short)
    refine ⟨divided, whole_iff.trans ?_⟩
    rw [cuts, same]
    rfl

/-- A chunk that starts with a span, or with what is left of one. -/
theorem reported_span (start size : Nat) (kind : Kind) (text : List Symbol)
    (parts : List (Part Kind Symbol))
    (enough : text.length + (textOf parts).length < size + sizes.sum)
    (rest : text.length ≤ size →
      Reported closes (start + text.length) parts ((size - text.length) :: sizes)
        (reports closes parts ((size - text.length) :: sizes)).flatten) :
    Reported closes start (.span kind text :: parts) (size :: sizes)
      (reports closes (.span kind text :: parts) (size :: sizes)).flatten := by
  have left (remains : List Symbol)
      (fits : remains.length + (textOf parts).length < sizes.sum) (start : Nat) :=
    later start (.span kind remains :: parts) (by
      rw [textOf_cons, List.length_append]
      exact fits)
  rw [reports_cons, scan]
  by_cases none : size = 0
  · subst none
    obtain ⟨divided, whole_iff⟩ := left text (by omega) start
    exact ⟨divided, whole_iff.trans (alignedFrom_cons_iff (Nat.le_refl _)).symm⟩
  rw [if_neg none]
  by_cases short : size < text.length
  · rw [if_pos short]
    have stops : ¬ Passes closes (start + text.length) (start + size) := by
      unfold Passes
      split <;> omega
    have piece : text.take size ≠ [] := by
      rw [← List.length_pos_iff, List.length_take]
      omega
    obtain ⟨divided, _⟩ := left (text.drop size) (by rw [List.length_drop]; omega) (start + size)
    rw [← List.take_append_drop size text] at stops
    have reported : Reported closes start _ (size :: sizes) _ :=
      .of_divided piece divided (Nat.pos_of_ne_zero none) stops
    rw [List.take_append_drop] at reported
    exact reported
  rw [if_neg short]
  by_cases closing : size = text.length ∧ closes = true
  · rw [if_pos closing]
    have stops : ¬ Passes closes (start + text.length) (start + size) := by
      unfold Passes
      rw [if_pos closing.2]
      omega
    have piece : text ≠ [] := by grind
    obtain ⟨divided, _⟩ := left [] (by rw [List.length_nil]; omega) (start + size)
    rw [← List.append_nil text] at stops
    have reported : Reported closes start _ (size :: sizes) _ :=
      .of_divided piece divided (Nat.pos_of_ne_zero none) stops
    rw [List.append_nil] at reported
    exact reported
  · rw [if_neg closing]
    refine .whole (Nat.not_lt.mp short) ?_ (rest (Nat.not_lt.mp short))
    unfold Passes
    split
    · grind
    · omega

/-- A chunk. -/
theorem reported_scan (start size : Nat) (parts : List (Part Kind Symbol))
    (enough : (textOf parts).length < size + sizes.sum) :
    Reported closes start parts (size :: sizes) (reports closes parts (size :: sizes)).flatten := by
  induction parts generalizing start size with
  | nil =>
    rw [reports_nil]
    exact ⟨.nil, iff_of_true rfl nofun⟩
  | cons part parts ih =>
    rw [textOf_cons, List.length_append] at enough
    cases part with
    | plain text =>
      rw [Part.text] at enough
      exact reported_plain later start size text parts enough fun covers =>
        ih (start + text.length) (size - text.length) (by omega)
    | span kind text =>
      rw [Part.text] at enough
      exact reported_span later start size kind text parts enough fun covers =>
        ih (start + text.length) (size - text.length) (by omega)

end

/-- The reader divides the spans in consecutive pieces, and divides none of them exactly
if no chunk ends inside one. -/
theorem reported_reports {closes : Bool} {sizes : List Nat} (start : Nat)
    (parts : List (Part Kind Symbol)) (enough : (textOf parts).length < sizes.sum) :
    Reported closes start parts sizes (reports closes parts sizes).flatten := by
  induction sizes generalizing start parts with
  | nil => exact absurd enough (Nat.not_lt_zero _)
  | cons size sizes ih => exact reported_scan ih start size parts enough

end Spans

end Crouton.Lib
