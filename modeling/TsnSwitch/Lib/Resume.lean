/-
A listing in messages of limited room. An item that does not fit is left out and those
behind it are tried, and the number of items that were put is where the next message
starts. The listing is complete just when in no message an item is put behind one that
was left out (`listing_iff`).
-/
import Mathlib.Tactic

namespace TsnSwitch.Lib

variable {α : Type*} (size : α → Nat)

/-- A message, with the number of the next item. -/
structure Message (α : Type*) where
  idx : Nat := 0
  room : Nat
  out : List α := []
  full : Bool := false

/-- The items before `start` are in other messages. -/
def Message.put (start : Nat) (m : Message α) (x : α) : Message α :=
  if m.idx < start then { m with idx := m.idx + 1 }
  else if size x ≤ m.room then { m with idx := m.idx + 1, room := m.room - size x, out := m.out ++ [x] }
  else { m with full := true }

def fill (start room : Nat) (xs : List α) : Message α := xs.foldl (Message.put size start) { room }

/-- The items that are put into `room`. -/
def fits : Nat → List α → List α
  | _, [] => []
  | room, x :: xs => if size x ≤ room then x :: fits (room - size x) xs else fits room xs

/-- The messages from `start` on, as long as there is one that is full, and whether there
was one that was not. -/
def listing (xs : List α) : List Nat → Nat → List α × Bool
  | [], _ => ([], false)
  | room :: rooms, start =>
    let m := fill size start room xs
    if m.full then
      let (out, ended) := listing xs rooms m.idx
      (m.out ++ out, ended)
    else (m.out, true)

/-- Nothing is put behind an item that is left out. -/
def Clean (room : Nat) (xs : List α) : Prop :=
  ∀ pre x suf, xs = pre ++ x :: suf → (pre.map size).sum ≤ room → room - (pre.map size).sum < size x →
    ∀ y ∈ suf, room - (pre.map size).sum < size y

/-- All messages of a listing are clean. -/
def AllClean (xs : List α) : List Nat → Nat → Prop
  | [], _ => True
  | room :: rooms, start =>
    Clean size room (xs.drop start) ∧ (let m := fill size start room xs; m.full = true → AllClean xs rooms m.idx)

variable {size}

variable (size) in
theorem fits_length_le (room : Nat) (xs : List α) : (fits size room xs).length ≤ xs.length := by
  induction xs generalizing room with
  | nil => exact Nat.le_refl _
  | cons x xs ih =>
    rw [fits]
    split
    · exact Nat.succ_le_succ (ih _)
    · exact Nat.le_succ_of_le (ih _)

/-- Nothing fits. -/
theorem fits_eq_nil_iff {room : Nat} {xs : List α} : fits size room xs = [] ↔ ∀ x ∈ xs, room < size x := by
  induction xs with
  | nil => exact iff_of_true rfl fun _ h => nomatch h
  | cons x xs ih =>
    rw [fits, List.forall_mem_cons]
    split
    · rename_i hle
      exact iff_of_false (List.cons_ne_nil _ _) fun h => absurd hle (Nat.not_le_of_lt h.1)
    · rename_i hlt
      rw [ih]
      exact (and_iff_right (Nat.lt_of_not_le hlt)).symm

/-- The first item that fits is one of the list that fits. -/
theorem size_head_fits {room : Nat} {xs : List α} {y : α} {ys : List α} (h : fits size room xs = y :: ys) :
    size y ≤ room := by
  induction xs with
  | nil => exact nomatch h
  | cons x xs ih =>
    rw [fits] at h
    split at h
    · rename_i hle
      obtain rfl := (List.cons.inj h).1
      exact hle
    · exact ih h

theorem clean_cons_of_le {room : Nat} {x : α} {xs : List α} (hle : size x ≤ room) :
    Clean size room (x :: xs) ↔ Clean size (room - size x) xs := by
  have hsum (pre : List α) : ((x :: pre).map size).sum = size x + (pre.map size).sum := by
    rw [List.map_cons, List.sum_cons]
  refine ⟨fun h pre y suf he hroom hlt => ?_, fun h pre y suf he hroom hlt => ?_⟩
  · have hclean := h (x :: pre) y suf (by rw [he]; rfl)
    rw [hsum, ← Nat.sub_sub] at hclean
    exact hclean (by omega) hlt
  · cases pre with
    | nil =>
      obtain ⟨rfl, _⟩ := List.cons.inj he
      exact absurd hle (Nat.not_le_of_lt hlt)
    | cons z pre =>
      obtain ⟨rfl, he'⟩ := List.cons.inj he
      rw [hsum] at hroom
      rw [hsum, ← Nat.sub_sub] at hlt ⊢
      exact h pre y suf he' (by omega) hlt

theorem clean_cons_of_lt {room : Nat} {x : α} {xs : List α} (hlt : room < size x) :
    Clean size room (x :: xs) ↔ ∀ y ∈ xs, room < size y := by
  refine ⟨fun h => h [] x xs rfl (Nat.zero_le _) hlt, fun h pre y suf he hroom _ => ?_⟩
  cases pre with
  | nil =>
    obtain ⟨rfl, rfl⟩ := List.cons.inj he
    exact h
  | cons z pre =>
    obtain ⟨rfl, _⟩ := List.cons.inj he
    rw [List.map_cons, List.sum_cons] at hroom
    omega

variable (size) in
/-- **What is put is the beginning of the list** just when nothing is put behind an item
that is left out. -/
theorem fits_prefix_iff (room : Nat) (xs : List α) : fits size room xs <+: xs ↔ Clean size room xs := by
  induction xs generalizing room with
  | nil =>
    refine iff_of_true (List.prefix_refl _) fun pre x suf he => ?_
    exact absurd he.symm (List.append_ne_nil_of_right_ne_nil pre (List.cons_ne_nil x suf))
  | cons x xs ih =>
    rw [fits]
    split
    · rename_i hle
      rw [clean_cons_of_le hle, List.cons_prefix_cons, and_iff_right rfl, ih]
    · rename_i hlt
      have hlt := Nat.lt_of_not_le hlt
      rw [clean_cons_of_lt hlt, ← fits_eq_nil_iff]
      refine ⟨fun hpre => ?_, fun hnil => hnil ▸ List.nil_prefix⟩
      cases hfits : fits size room xs with
      | nil => rfl
      | cons y ys =>
        -- the item that was left out is not the one that was put
        rw [hfits, List.cons_prefix_cons] at hpre
        exact absurd (size_head_fits hfits) (hpre.1 ▸ Nat.not_le_of_lt hlt)

/-! ## A message -/

variable (size) in
theorem foldl_put_before {start : Nat} (xs : List α) {m : Message α} (h : m.idx + xs.length ≤ start) :
    xs.foldl (Message.put size start) m = { m with idx := m.idx + xs.length } := by
  induction xs generalizing m with
  | nil => rfl
  | cons x xs ih =>
    rw [List.length_cons] at h
    have hput : m.put size start x = { m with idx := m.idx + 1 } := if_pos (by omega)
    rw [List.foldl_cons, hput, ih (by dsimp only; omega), List.length_cons]
    congr 1
    dsimp only
    omega

variable (size) in
theorem foldl_put {start : Nat} (xs : List α) {m : Message α} (h : start ≤ m.idx) :
    let r := xs.foldl (Message.put size start) m
    r.out = m.out ++ fits size m.room xs ∧ r.idx = m.idx + (fits size m.room xs).length ∧
      r.full = (m.full || decide ((fits size m.room xs).length < xs.length)) := by
  induction xs generalizing m with
  | nil => exact ⟨(List.append_nil _).symm, rfl, (Bool.or_false _).symm⟩
  | cons x xs ih =>
    have hnot : ¬ m.idx < start := Nat.not_lt_of_le h
    rw [List.foldl_cons]
    by_cases hle : size x ≤ m.room
    · have hput : m.put size start x = { m with idx := m.idx + 1, room := m.room - size x, out := m.out ++ [x] } := by
        rw [Message.put, if_neg hnot, if_pos hle]
      have hnext : start ≤ (m.put size start x).idx := by
        rw [hput]
        exact Nat.le_succ_of_le h
      obtain ⟨hout, hidx, hfull⟩ := ih hnext
      rw [hput] at hout hidx hfull ⊢
      rw [fits, if_pos hle]
      refine ⟨by rw [hout, List.append_assoc]; rfl, by rw [hidx, List.length_cons]; dsimp only; omega, ?_⟩
      rw [hfull, List.length_cons, List.length_cons]
      simp
    · have hput : m.put size start x = { m with full := true } := by rw [Message.put, if_neg hnot, if_neg hle]
      have hnext : start ≤ (m.put size start x).idx := by
        rw [hput]
        exact h
      obtain ⟨hout, hidx, hfull⟩ := ih hnext
      rw [hput] at hout hidx hfull ⊢
      rw [fits, if_neg hle]
      have hlen := fits_length_le size m.room xs
      refine ⟨hout, hidx, ?_⟩
      rw [hfull, List.length_cons, decide_eq_true (Nat.lt_succ_of_le hlen), Bool.or_true]
      rfl

variable (size) in
/-- What is in a message. -/
theorem fill_eq {start : Nat} {xs : List α} (h : start ≤ xs.length) (room : Nat) :
    let m := fill size start room xs
    m.out = fits size room (xs.drop start) ∧ m.idx = start + (fits size room (xs.drop start)).length ∧
      (m.full = true ↔ (fits size room (xs.drop start)).length < (xs.drop start).length) := by
  have htake : (xs.take start).length = start := List.length_take_of_le h
  have hbefore := foldl_put_before size (xs.take start) (show ({ room } : Message α).idx + (xs.take start).length ≤ start by simp [htake])
  have hafter := foldl_put size (xs.drop start) (show start ≤ ({ room, idx := start } : Message α).idx from Nat.le_refl start)
  intro m
  have hm : m = (xs.drop start).foldl (Message.put size start) { room, idx := start } := by
    show fill size start room xs = _
    rw [fill]
    conv_lhs => rw [← List.take_append_drop start xs]
    rw [List.foldl_append, hbefore, htake]
    simp
  rw [hm]
  obtain ⟨hout, hidx, hfull⟩ := hafter
  exact ⟨hout, hidx, by rw [hfull]; simp⟩

/-! ## A listing -/

/-- **A listing that has ended is complete**, with each item once and in order, just when
all its messages were clean. -/
theorem listing_iff {xs : List α} (rooms : List Nat) {start : Nat} (h : start ≤ xs.length)
    (hend : (listing size xs rooms start).2 = true) :
    (listing size xs rooms start).1 = xs.drop start ↔ AllClean size xs rooms start := by
  induction rooms generalizing start with
  | nil => exact nomatch hend
  | cons room rooms ih =>
    obtain ⟨hout, hidx, hfull⟩ := fill_eq size h room
    have hlen := fits_length_le size room (xs.drop start)
    have hprefix := fits_prefix_iff size room (xs.drop start)
    rw [listing] at hend ⊢
    rw [AllClean, ← hprefix]
    dsimp only at hend ⊢
    by_cases hm : (fill size start room xs).full = true
    · rw [if_pos hm] at hend ⊢
      dsimp only at hend ⊢
      rw [hout]
      have hdrop : xs.drop (fill size start room xs).idx =
          (xs.drop start).drop (fits size room (xs.drop start)).length := by
        rw [hidx, List.drop_drop]
      have hle : (fill size start room xs).idx ≤ xs.length := by
        rw [List.length_drop] at hlen
        omega
      rw [← ih hle hend, hdrop]
      generalize xs.drop start = ys
      -- the rest of the list is behind what is put
      have hsplit (hpre : fits size room ys <+: ys) : fits size room ys ++ ys.drop (fits size room ys).length = ys := by
        conv_lhs => arg 1; rw [List.prefix_iff_eq_take.1 hpre]
        exact List.take_append_drop _ ys
      refine ⟨fun he => ?_, fun ⟨hpre, hrest⟩ => ?_⟩
      · have hpre : fits size room ys <+: ys := ⟨_, he⟩
        exact ⟨hpre, fun _ => List.append_cancel_left (he.trans (hsplit hpre).symm)⟩
      · rw [hrest hm]
        exact hsplit hpre
    · rw [if_neg hm, hout]
      have hall : (fits size room (xs.drop start)).length = (xs.drop start).length :=
        Nat.le_antisymm hlen (Nat.le_of_not_lt (mt hfull.2 hm))
      refine ⟨fun he => ⟨⟨[], ?_⟩, fun hm' => absurd hm' hm⟩, fun hpre => hpre.1.eq_of_length hall⟩
      rw [List.append_nil]
      exact he

variable (size) in
theorem fits_sublist (room : Nat) (xs : List α) : (fits size room xs).Sublist xs := by
  induction xs generalizing room with
  | nil => exact List.Sublist.refl _
  | cons x xs ih =>
    rw [fits]
    split
    · exact (ih _).cons_cons x
    · exact (ih _).cons x

variable (size) in
theorem listing_subset {xs : List α} (rooms : List Nat) {start : Nat} (h : start ≤ xs.length) :
    (listing size xs rooms start).1 ⊆ xs.drop start := by
  induction rooms generalizing start with
  | nil => exact List.nil_subset _
  | cons room rooms ih =>
    obtain ⟨hout, hidx, _⟩ := fill_eq size h room
    have hlen := fits_length_le size room (xs.drop start)
    have hfits := (fits_sublist size room (xs.drop start)).subset
    rw [listing]
    dsimp only
    split
    · have hrest := ih (show (fill size start room xs).idx ≤ xs.length by rw [List.length_drop] at hlen; omega)
      rw [hidx, ← List.drop_drop] at hrest
      rw [hout, hidx]
      exact List.append_subset.2 ⟨hfits, fun x hx => List.drop_subset _ _ (hrest hx)⟩
    · rw [hout]
      exact hfits

/-- What is left out of a message that is not clean is before the next message. -/
theorem exists_left_out {room : Nat} {ys : List α} (hnodup : ys.Nodup) (h : ¬ Clean size room ys) :
    ∃ x ∈ ys, x ∉ fits size room ys ∧ x ∉ ys.drop (fits size room ys).length := by
  induction ys generalizing room with
  | nil => exact absurd (fun pre x suf he => absurd he.symm (List.append_ne_nil_of_right_ne_nil pre (List.cons_ne_nil x suf))) h
  | cons y ys ih =>
    obtain ⟨hy, hnodup⟩ := List.nodup_cons.1 hnodup
    rw [fits]
    split
    · rename_i hle
      rw [clean_cons_of_le hle] at h
      obtain ⟨x, hx, hfits, hdrop⟩ := ih hnodup h
      refine ⟨x, List.mem_cons_of_mem y hx, ?_, hdrop⟩
      exact fun hmem => (List.mem_cons.1 hmem).elim (fun he => hy (he ▸ hx)) hfits
    · rename_i hlt
      rw [clean_cons_of_lt (Nat.lt_of_not_le hlt), ← fits_eq_nil_iff] at h
      refine ⟨y, List.mem_cons_self, fun hmem => hy ((fits_sublist size room ys).subset hmem), fun hmem => hy ?_⟩
      obtain ⟨n, hn⟩ := Nat.exists_eq_succ_of_ne_zero (mt List.length_eq_zero_iff.1 h)
      rw [hn, List.drop_succ_cons] at hmem
      exact List.drop_subset n ys hmem

/-- **An item is missing for good** when a message was not clean. -/
theorem listing_missing {xs : List α} (hnodup : xs.Nodup) (rooms : List Nat) {start : Nat} (h : start ≤ xs.length)
    (hclean : ¬ AllClean size xs rooms start) : ∃ x ∈ xs.drop start, x ∉ (listing size xs rooms start).1 := by
  induction rooms generalizing start with
  | nil => exact absurd True.intro hclean
  | cons room rooms ih =>
    obtain ⟨hout, hidx, hfull⟩ := fill_eq size h room
    have hlen := fits_length_le size room (xs.drop start)
    have hle : (fill size start room xs).idx ≤ xs.length := by
      rw [List.length_drop] at hlen
      omega
    have hsub := listing_subset size rooms hle
    have hdrop : xs.drop (fill size start room xs).idx = (xs.drop start).drop (fits size room (xs.drop start)).length := by
      rw [hidx, List.drop_drop]
    have hys : (xs.drop start).Nodup := hnodup.sublist (List.drop_sublist start xs)
    rw [AllClean] at hclean
    rw [listing]
    dsimp only at hclean ⊢
    by_cases hc : Clean size room (xs.drop start)
    · have hpre := (fits_prefix_iff size room (xs.drop start)).2 hc
      rw [and_iff_right hc, Classical.not_imp] at hclean
      obtain ⟨hm, hrest⟩ := hclean
      obtain ⟨x, hx, hnot⟩ := ih hle hrest
      rw [if_pos hm, hout]
      rw [hdrop] at hx
      refine ⟨x, List.drop_subset _ _ hx, fun hmem => (List.mem_append.1 hmem).elim (fun hfits => ?_) hnot⟩
      rw [List.prefix_iff_eq_take.1 hpre] at hfits
      exact List.disjoint_take_drop hys (Nat.le_refl _) hfits hx
    · obtain ⟨x, hx, hfits, hnot⟩ := exists_left_out hys hc
      refine ⟨x, hx, ?_⟩
      rw [← hdrop] at hnot
      split
      · rw [hout]
        exact fun hmem => (List.mem_append.1 hmem).elim hfits fun hrest => hnot (hsub hrest)
      · rw [hout]
        exact hfits

/-- Items of one size are never out of order. -/
theorem clean_of_const {c room : Nat} {xs : List α} (h : ∀ x ∈ xs, size x = c) : Clean size room xs := by
  intro pre x suf he _ hlt y hy
  have hx : size x = c := h x (by rw [he]; exact List.mem_append_right _ List.mem_cons_self)
  have hy : size y = c := h y (by rw [he]; exact List.mem_append_right _ (List.mem_cons_of_mem _ hy))
  rwa [hy, ← hx]

theorem allClean_of_const {c : Nat} {xs : List α} (h : ∀ x ∈ xs, size x = c) (rooms : List Nat) (start : Nat) :
    AllClean size xs rooms start := by
  induction rooms generalizing start with
  | nil => exact True.intro
  | cons room rooms ih => exact ⟨clean_of_const fun x hx => h x (List.drop_subset _ _ hx), fun _ => ih _⟩

end TsnSwitch.Lib
