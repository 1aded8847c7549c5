/-
Maps by numbers, in the order of their keys, and lists of which a loop copies a part.

`keys` is the order in which a traversal meets the keys. A counter that goes up with each
key that comes and down with each key that goes is their number (`Counts`). The loop that
copies a part of a list reads its window (`copyLoop_eq`).
-/
import TsnSwitch.Lib.Window

namespace TsnSwitch.Lib

variable {w : Nat} {α : Type*}

/-! ## Keys -/

/-- The keys of a map, from the smallest on. -/
def keys (m : BitVec w → Option α) : List (BitVec w) :=
  ((List.range (2 ^ w)).map (BitVec.ofNat w)).filter fun k => (m k).isSome

section Keys

variable {m m' : BitVec w → Option α} {k : BitVec w} {v : α}

theorem mem_keys : k ∈ keys m ↔ ∃ v, m k = some v := by
  rw [keys, List.mem_filter, ← Option.isSome_iff_exists]
  refine and_iff_right (List.mem_map.2 ⟨k.toNat, List.mem_range.2 k.isLt, ?_⟩)
  exact BitVec.eq_of_toNat_eq (Nat.mod_eq_of_lt k.isLt)

/-- The keys rise. -/
theorem keys_sorted (m : BitVec w → Option α) : (keys m).Pairwise fun a b => a.toNat < b.toNat := by
  refine List.Pairwise.filter _ (List.pairwise_map.2 (List.pairwise_lt_range.imp_of_mem fun {a b} ha hb hlt => ?_))
  rw [BitVec.toNat_ofNat, BitVec.toNat_ofNat, Nat.mod_eq_of_lt (List.mem_range.1 ha), Nat.mod_eq_of_lt (List.mem_range.1 hb)]
  exact hlt

theorem keys_nodup (m : BitVec w → Option α) : (keys m).Nodup :=
  (keys_sorted m).imp fun hlt he => absurd (congrArg BitVec.toNat he) (Nat.ne_of_lt hlt)

theorem keys_empty : keys (fun _ : BitVec w => (none : Option α)) = [] :=
  List.filter_eq_nil_iff.2 fun _ _ h => nomatch h

/-- The last of numbers that rise is the largest. -/
theorem getLast?_sorted {ks : List (BitVec w)} (h : ks.Pairwise fun a b => a.toNat < b.toNat) :
    ks.getLast? = some k ↔ k ∈ ks ∧ ∀ a ∈ ks, a.toNat ≤ k.toNat := by
  obtain rfl | ⟨init, last, rfl⟩ := List.eq_nil_or_concat ks
  · simp
  · rw [List.concat_eq_append] at h ⊢
    have hlt (a : BitVec w) (ha : a ∈ init) : a.toNat < last.toNat :=
      (List.pairwise_append.1 h).2.2 a ha last (List.mem_singleton_self last)
    rw [List.getLast?_concat]
    constructor
    · intro he
      obtain rfl := Option.some.inj he
      refine ⟨List.mem_append_right _ (List.mem_singleton_self last), fun a ha => ?_⟩
      obtain ha | ha := List.mem_append.1 ha
      · exact (hlt a ha).le
      · exact (congrArg BitVec.toNat (List.mem_singleton.1 ha)).le
    · intro hk
      obtain ⟨hmem, hmax⟩ := hk
      obtain hin | hin := List.mem_append.1 hmem
      · exact absurd (hmax last (List.mem_append_right _ (List.mem_singleton_self last))) (Nat.not_le.2 (hlt k hin))
      · rw [List.mem_singleton.1 hin]

/-- The keys are those of another map that has a value where this one has. -/
theorem keys_congr {β : Type*} {m' : BitVec w → Option β} (h : ∀ k, (m k).isSome = (m' k).isSome) : keys m = keys m' :=
  List.filter_congr fun k _ => h k

theorem of_update {o : Option α} {x : BitVec w} (h : Function.update m k o x = some v) : x = k ∧ o = some v ∨ m x = some v := by
  rw [Function.update_apply] at h
  split at h
  · exact .inl ⟨‹_›, h⟩
  · exact .inr h

theorem keys_update_some (h : m k = some v) (v' : α) : keys (Function.update m k (some v')) = keys m := by
  refine keys_congr fun x => ?_
  rw [Function.update_apply]
  split
  · rename_i he
    rw [he, h]
    rfl
  · rfl

theorem length_keys_insert (h : m k = none) (v : α) :
    (keys (Function.update m k (some v))).length = (keys m).length + 1 := by
  have hnot : k ∉ keys m := fun hk => by
    obtain ⟨x, hx⟩ := mem_keys.1 hk
    exact absurd (h.symm.trans hx) (by simp)
  have hperm : (keys (Function.update m k (some v))).Perm (k :: keys m) := by
    refine (List.perm_ext_iff_of_nodup (keys_nodup _) (List.nodup_cons.2 ⟨hnot, keys_nodup m⟩)).2 fun x => ?_
    rw [mem_keys, List.mem_cons, mem_keys, Function.update_apply]
    split
    · rename_i he
      exact iff_of_true ⟨v, rfl⟩ (.inl he)
    · rename_i hne
      exact (or_iff_right hne).symm
  exact hperm.length_eq

theorem length_keys_erase (h : m k = some v) :
    (keys m).length = (keys (Function.update m k none)).length + 1 := by
  have hself : Function.update (Function.update m k none) k (some v) = m := by
    rw [Function.update_idem, ← h, Function.update_eq_self]
  rw [← length_keys_insert (Function.update_self k none m) v, hself]

end Keys

-- The keys that there might be are not gone through.
attribute [irreducible] keys

/-! ## Counters -/

/-- The counter has the number of keys, as far as it goes. -/
def Counts {n : Nat} (c : BitVec n) (m : BitVec w → Option α) : Prop := c = BitVec.ofNat n (keys m).length

section Counts

variable {n : Nat} {c : BitVec n} {m : BitVec w → Option α} {k : BitVec w} {v : α}

theorem Counts.insert (h : Counts c m) (hk : m k = none) (v : α) : Counts (c + 1) (Function.update m k (some v)) := by
  rw [Counts, length_keys_insert hk, h, BitVec.ofNat_add]
  rfl

theorem Counts.erase (h : Counts c m) (hk : m k = some v) : Counts (c - 1) (Function.update m k none) := by
  rw [Counts, h, length_keys_erase hk, BitVec.ofNat_add]
  exact BitVec.add_sub_cancel ..

theorem Counts.update (h : Counts c m) (hk : m k = some v) (v' : α) : Counts c (Function.update m k (some v')) := by
  rw [Counts, keys_update_some hk, h]

theorem Counts.toNat (h : Counts c m) (hlt : (keys m).length < 2 ^ n) : c.toNat = (keys m).length := by
  rw [h, BitVec.toNat_ofNat, Nat.mod_eq_of_lt hlt]

end Counts

/-! ## Copies -/

/-- A loop that copies the elements `first` to `first + count - 1` of a list, when it has
seen `i`. -/
def copyLoop (first count : Nat) : Nat → List α → List α
  | _, [] => []
  | i, x :: xs =>
    let i := i + 1
    if i > first + count then []
    else if i ≤ first then copyLoop first count i xs
    else x :: copyLoop first count i xs

section Copies

variable {first count : Nat}

theorem copyLoop_inside {i : Nat} (h : first ≤ i) (xs : List α) : copyLoop first count i xs = xs.take (first + count - i) := by
  induction xs generalizing i with
  | nil => exact List.take_nil.symm
  | cons x xs ih =>
    rw [copyLoop]
    split
    · rw [show first + count - i = 0 by omega, List.take_zero]
    · rw [if_neg (by omega), ih (by omega), show first + count - i = first + count - (i + 1) + 1 by omega, List.take_succ_cons]

/-- The loop copies the window. -/
theorem copyLoop_eq (first count : Nat) (xs : List α) : copyLoop first count 0 xs = (xs.drop first).take count := by
  have hgen : ∀ i ≤ first, copyLoop first count i xs = (xs.drop (first - i)).take count := by
    intro i hi
    induction xs generalizing i with
    | nil => rw [copyLoop, List.drop_nil, List.take_nil]
    | cons x xs ih =>
      obtain rfl | hlt := Nat.eq_or_lt_of_le hi
      · rw [copyLoop_inside (Nat.le_refl _), Nat.sub_self, List.drop_zero, Nat.add_sub_cancel_left]
      · rw [copyLoop]
        rw [if_neg (by omega), if_pos (Nat.succ_le_of_lt hlt), ih (i + 1) hlt, show first - i = first - (i + 1) + 1 by omega, List.drop_succ_cons]
  exact hgen 0 (Nat.zero_le _)

/-- What is copied, and `d` where the list has ended, is the window of its slots. -/
theorem copyLoop_pad (first count : Nat) (xs : List α) (d : α) :
    copyLoop first count 0 xs ++ List.replicate (count - (copyLoop first count 0 xs).length) d =
      window (fun i => xs[i]?.getD d) first count := by
  rw [copyLoop_eq]
  refine eq_window_iff.2 ⟨?_, fun i hi => ?_⟩
  · rw [List.length_append, List.length_replicate, List.length_take]
    omega
  · have hslot : ((xs.drop first).take count)[i]? = xs[first + i]? := by
      rw [List.getElem?_take_of_lt hi, List.getElem?_drop]
    cases hx : xs[first + i]? with
    | some x =>
      rw [hx] at hslot
      rw [List.getElem?_append_left (List.getElem?_eq_some_iff.1 hslot).1, hslot, Option.getD_some]
    | none =>
      rw [hx] at hslot
      have hlen := List.getElem?_eq_none_iff.1 hslot
      rw [List.getElem?_append_right hlen, List.getElem?_replicate_of_lt, Option.getD_none]
      omega

/-- A list that fits into the window is in it, among `d`. -/
theorem mem_window_pad {xs : List α} {n : Nat} {d x : α} (hlen : xs.length ≤ n) (hx : x ≠ d) :
    x ∈ window (fun i => xs[i]?.getD d) 0 n ↔ x ∈ xs := by
  simp only [window, List.mem_map, List.mem_range, Nat.zero_add]
  constructor
  · rintro ⟨i, _, hi⟩
    cases hget : xs[i]? with
    | none =>
      rw [hget] at hi
      exact absurd hi.symm hx
    | some y =>
      rw [hget, Option.getD_some] at hi
      exact hi ▸ List.mem_of_getElem? hget
  · intro hmem
    obtain ⟨i, hi⟩ := List.mem_iff_getElem?.1 hmem
    refine ⟨i, Nat.lt_of_lt_of_le (List.getElem?_eq_some_iff.1 hi).1 hlen, ?_⟩
    rw [hi, Option.getD_some]

end Copies

end TsnSwitch.Lib
