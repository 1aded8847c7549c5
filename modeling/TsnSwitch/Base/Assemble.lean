/-
`assemble_vids_as_array` writes the numbers a list denotes (`assembledOk_iff`).

It does so, for a list and each list it begins with, exactly as long as the
numbers fit the rows, no bound of an interval has fewer digits than the same
bound of the interval before it, and no element makes the program leave its
objects. The proof takes the list element by element: `parse` is the loop
over the characters seen that way.
-/
import TsnSwitch.Base.Format
import TsnSwitch.Lib.Run

namespace TsnSwitch.Base

open Lib

/-! ## The loop, element by element -/

/-- One element; the first one must not be empty. -/
def element (rowNum colNum : Nat) (first : Bool) (l : Locals) (e : List Char) : Except Fault Flow :=
  if first = true ∧ e = [] then .error .pointer
  else if BASE_TEN ≤ e.length then .error .subStr
  else takeElement rowNum colNum l e

def parseFrom (rowNum colNum : Nat) : Bool → Locals → List (List Char) → Except Fault Flow
  | _, l, [] => .ok (.next l)
  | first, l, e :: es =>
    match element rowNum colNum first l e with
    | .ok (.next l) => parseFrom rowNum colNum false l es
    | r => r

def parse (rowNum colNum : Nat) (es : List (List Char)) : Except Fault Flow :=
  parseFrom rowNum colNum true .initial es

section Scan

variable (rowNum colNum : Nat) {first : Bool} {l : Locals} {vids : List Char}

theorem parseFrom_concat (es : List (List Char)) (e : List Char) :
    parseFrom rowNum colNum first l (es ++ [e]) =
      match parseFrom rowNum colNum first l es with
      | .ok (.next l) => element rowNum colNum (first && es.isEmpty) l e
      | r => r := by
  induction es generalizing first l with
  | nil =>
    simp only [List.nil_append, parseFrom, List.isEmpty_nil, Bool.and_true]
    split <;> simp_all
  | cons e' es ih =>
    rw [List.cons_append, parseFrom, parseFrom]
    cases element rowNum colNum first l e' with
    | error fault => rfl
    | ok r =>
      cases r with
      | done rows => rfl
      | next l' => simp only [ih, Bool.false_and, List.isEmpty_cons, Bool.and_false]

/-- `sub_str_end` when `sub_str_ptr` is at position `i`. -/
def endAt : Nat → Option Nat
  | 0 => none
  | i + 1 => some i

/-- Characters of an element only move the positions. -/
theorem scan_element {e : List Char} (he : ',' ∉ e) (rest : List Char) (i start : Nat) :
    scan rowNum colNum vids (e ++ rest) i start (endAt i) l =
      scan rowNum colNum vids rest (i + e.length) start (endAt (i + e.length)) l := by
  induction e generalizing i with
  | nil => rfl
  | cons c e ih =>
    rw [List.mem_cons, not_or] at he
    rw [List.cons_append, scan, if_neg (Ne.symm he.1), show some i = endAt (i + 1) from rfl, ih he.2,
      List.length_cons, show i + (e.length + 1) = i + 1 + e.length by omega]

theorem takeSubStr_element {done e rest : List Char} (hv : vids = done ++ (e ++ rest)) :
    takeSubStr rowNum colNum vids done.length (endAt (done.length + e.length)) l =
      element rowNum colNum (decide (done = [])) l e := by
  have hsub : (vids.drop done.length).take e.length = e := by
    rw [hv, List.drop_left, List.take_left]
  by_cases h0 : done = [] ∧ e = []
  · obtain ⟨rfl, rfl⟩ := h0
    rfl
  · rw [element, if_neg (by simpa using h0)]
    obtain ⟨k, hk⟩ : ∃ k, done.length + e.length = k + 1 := by
      refine Nat.exists_eq_add_one_of_ne_zero fun h => h0 ?_
      rw [Nat.add_eq_zero_iff, List.length_eq_zero_iff, List.length_eq_zero_iff] at h
      exact h
    rw [hk, endAt, takeSubStr, show k + 1 - done.length = e.length by omega, hsub]

theorem scan_join {es : List (List Char)} (hne : es ≠ []) (hc : ∀ e ∈ es, ',' ∉ e) (done : List Char)
    (hv : vids = done ++ join es) :
    scan rowNum colNum vids (join es) done.length done.length (endAt done.length) l =
      parseFrom rowNum colNum (decide (done = [])) l es := by
  induction es generalizing done l with
  | nil => exact absurd rfl hne
  | cons e es ih =>
    have he := hc e (List.mem_cons_self ..)
    cases es with
    | nil =>
      have hj : join [e] = e ++ [] := by simp [join]
      rw [hj] at hv ⊢
      rw [scan_element _ _ he, scan, takeSubStr_element _ _ hv, parseFrom]
      cases element rowNum colNum (decide (done = [])) l e with
      | error fault => rfl
      | ok r => cases r <;> rfl
    | cons e' es =>
      have hj : join (e :: e' :: es) = e ++ ',' :: join (e' :: es) := by simp [join]
      rw [hj] at hv ⊢
      rw [scan_element _ _ he, scan, if_pos rfl, takeSubStr_element _ _ hv, parseFrom]
      cases element rowNum colNum (decide (done = [])) l e with
      | error fault => rfl
      | ok r =>
        cases r with
        | done rows => rfl
        | next l' =>
          have hlen : (done ++ e ++ [',']).length = done.length + e.length + 1 := by
            simp only [List.length_append, List.length_cons, List.length_nil]
          have hne : decide (done ++ e ++ [','] = []) = false := by simp
          have hrest := ih (l := l') (List.cons_ne_nil _ _) (fun x hx => hc x (List.mem_cons_of_mem _ hx))
            (done ++ e ++ [',']) (by rw [hv]; simp)
          rw [hne, hlen] at hrest
          exact hrest

end Scan

/-- What the function does with a list of elements. -/
theorem assemble_join {rowNum colNum : Nat} {es : List (List Char)} (hne : es ≠ []) (hc : ∀ e ∈ es, ',' ∉ e) :
    assembleVidsAsArray rowNum colNum (some (join es)) =
      if MAX_STR_LEN < (join es).length then .ok [] else (parse rowNum colNum es).map Flow.rows := by
  rw [assembleVidsAsArray]
  refine if_congr Iff.rfl rfl ?_
  have h := scan_join rowNum colNum (l := .initial) hne hc [] (List.nil_append _).symm
  exact congrArg _ h

/-! ## One item -/

/-- A row is wide enough for every VLAN id. -/
structure Width where
  val : Nat
  room : BASE_FIVE ≤ val

/-- The digits of numbers, as rows. -/
def numRows (ns : List Nat) : Rows := ns.map (Nat.toDigits 10)

theorem numRows_append (ms ns : List Nat) : numRows (ms ++ ns) = numRows ms ++ numRows ns := List.map_append

theorem length_numRows (ns : List Nat) : (numRows ns).length = ns.length := List.length_map _

theorem numRows_ne_nil (ns : List Nat) : ∀ row ∈ numRows ns, row ≠ [] := by
  intro row hrow
  obtain ⟨n, -, rfl⟩ := List.mem_map.1 hrow
  exact Nat.toDigits_ne_nil

theorem numRows_inj {ms ns : List Nat} (h : numRows ms = numRows ns) : ms = ns :=
  List.map_injective_iff.2 (fun _ _ h => toDigits_inj h) h

theorem writeRows_eq (rowNum colNum : Nat) {rows : Rows} (h : rows.length ≤ rowNum) (texts : List (List Char)) :
    writeRows rowNum colNum rows texts =
      if rows.length + texts.length ≤ rowNum then .ok (rows ++ texts.map (List.take (colNum - 1))) else .error .row := by
  induction texts generalizing rows with
  | nil => rw [writeRows, if_pos (by simpa using h), List.map_nil, List.append_nil]
  | cons text texts ih =>
    rw [writeRows]
    by_cases hlt : rows.length < rowNum
    · rw [if_pos hlt, ih (by rw [List.length_append]; exact hlt)]
      simp only [List.length_append, List.length_cons, List.length_nil, List.append_assoc, List.map_cons,
        List.cons_append, List.nil_append]
      rw [show rows.length + (0 + 1) + texts.length = rows.length + (texts.length + 1) by omega]
    · rw [if_neg hlt, if_neg (by rw [List.length_cons]; omega)]

/-- Numbers of at most four digits are written in full. -/
theorem writeRows_nums (rowNum : Nat) (colNum : Width) {rows : Rows} (h : rows.length ≤ rowNum) (ns : List Nat)
    (hn : ∀ n ∈ ns, n < 10 ^ 4) :
    writeRows rowNum colNum.val rows (numRows ns) =
      if rows.length + ns.length ≤ rowNum then .ok (rows ++ numRows ns) else .error .row := by
  have hcut : (numRows ns).map (List.take (colNum.val - 1)) = numRows ns := by
    refine map_take_of_short fun text htext => ?_
    obtain ⟨n, hmem, rfl⟩ := List.mem_map.1 htext
    have hlen : (Nat.toDigits 10 n).length ≤ 4 :=
      (Nat.length_toDigits_le_iff (by decide) (by decide)).2 (hn n hmem)
    have hroom := colNum.room
    simp only [BASE_FIVE] at hroom
    omega
  rw [writeRows_eq _ _ h, hcut, numRows, List.length_map]

theorem vidRange_nat (m n : Nat) : (vidRange m n).map decimal = numRows (List.range' m (n + 1 - m)) := by
  rw [vidRange, numRows, List.range'_eq_map_range, List.map_map, List.map_map,
    show ((n : Int) - m + 1).toNat = n + 1 - m by omega]
  rfl

section Item

variable {rowNum : Nat} {colNum : Width} {first : Bool} {s t : Held} {rows : Rows}

theorem takeElement_vid (hrows : rows.length ≤ rowNum) (v : Num) :
    takeElement rowNum colNum.val ⟨holding s t, rows⟩ (Item.vid v).text =
      if rows.length + 1 ≤ rowNum then .ok (.next ⟨holding s t, rows ++ numRows [v.val]⟩) else .error .row := by
  have hw := writeRows_nums rowNum colNum hrows [v.val] (by simpa using v.lt)
  rw [takeElement, Item.isSubInterval_vid, if_neg (by decide)]
  rw [show writeRows rowNum colNum.val rows [(Item.vid v).text] = _ from hw, List.length_singleton]
  split <;> rfl

/-- The bounds an interval is read with, and what is written for them. -/
theorem takeElement_interval (hrows : rows.length ≤ rowNum) (lo hi : Num) :
    let min := (s.overwrite lo).value
    let max := (t.overwrite hi).value
    takeElement rowNum colNum.val ⟨holding s t, rows⟩ (Item.interval lo hi).text =
      if max < min then .ok (.done rows)
      else if rows.length + (max + 1 - min) ≤ rowNum then
        .ok (.next ⟨holding (s.overwrite lo) (t.overwrite hi), rows ++ numRows (List.range' min (max + 1 - min))⟩)
      else .error .row := by
  intro min max
  have hmax : max < 10 ^ 4 := (t.overwrite hi).value_lt
  have hminus : lastMinus (Item.interval lo hi).text 0 0 = lo.text.length := by
    rw [Item.text, lastMinus_append hi.minus_notMem_text, Nat.zero_add]
  have hlo : (Item.interval lo hi).text.take lo.text.length = lo.text := List.take_left
  have hhi : (Item.interval lo hi).text.drop (lo.text.length + 1) = hi.text := by
    rw [Item.text, ← List.drop_drop, List.drop_left]; rfl
  rw [takeElement, Item.isSubInterval_interval, if_pos rfl]
  simp only [hminus, hlo, hhi, intervalBounds_holding]
  by_cases hlt : max < min
  · simp only [min, max] at hlt ⊢
    rw [if_pos hlt, if_pos hlt]
  · simp only [min, max] at hlt ⊢
    rw [if_neg hlt, if_neg hlt]
    simp only [vidRange_nat]
    rw [writeRows_nums rowNum colNum hrows (List.range' _ _), List.length_range']
    · split <;> rfl
    · intro n hn
      rw [List.mem_range'_1] at hn
      simp only [max] at hmax
      omega

theorem element_text (l : Locals) (it : Item) :
    element rowNum colNum.val first l it.text = takeElement rowNum colNum.val l it.text := by
  rw [element, if_neg fun h => it.text_ne_nil h.2, if_neg (Nat.not_le.2 it.text_length)]

variable {items : List Item} {it : Item}

/-- What the function does with an item none of whose bounds is shorter than
the one before. -/
theorem element_notShorter (hrows : rows.length ≤ rowNum) (hns : it.NotShorter items) (hasc : it.Ascending) :
    element rowNum colNum.val first ⟨holding (heldLo items) (heldHi items), rows⟩ it.text =
      if rows.length + it.vids.length ≤ rowNum then
        .ok (.next ⟨holding (heldLo (items ++ [it])) (heldHi (items ++ [it])), rows ++ numRows it.vids⟩)
      else .error .row := by
  rw [element_text]
  cases it with
  | vid v =>
    rw [takeElement_vid hrows, heldLo_concat_vid, heldHi_concat_vid]
    rfl
  | interval lo hi =>
    obtain ⟨hlo, hhi⟩ := (notShorter_iff items lo hi).1 hns
    rw [takeElement_interval hrows, Held.overwrite_of_le _ _ hlo, Held.overwrite_of_le _ _ hhi, Held.value_ofNum,
      Held.value_ofNum, if_neg (Nat.not_lt.2 hasc), heldLo_concat_interval, heldHi_concat_interval, Item.vids,
      List.length_range']

theorem range'_inj {a b m n : Nat} (hmn : m ≤ n) (hab : a ≤ b)
    (h : List.range' m (n + 1 - m) = List.range' a (b + 1 - a)) : m = a ∧ n = b := by
  have hlen := congrArg List.length h
  have hhead := congrArg List.head? h
  rw [List.length_range', List.length_range'] at hlen
  rw [show n + 1 - m = (n - m) + 1 by omega, show b + 1 - a = (b - a) + 1 by omega, List.range'_succ,
    List.range'_succ, List.head?_cons, List.head?_cons, Option.some.injEq] at hhead
  omega

/-- An item is written as what it denotes only if no bound is shorter than
the one before. -/
theorem notShorter_of_rows {fl : Flow} (hrows : rows.length ≤ rowNum) (hasc : it.Ascending)
    (h : element rowNum colNum.val first ⟨holding (heldLo items) (heldHi items), rows⟩ it.text = .ok fl)
    (hfl : fl.rows = rows ++ numRows it.vids) : it.NotShorter items := by
  rw [element_text] at h
  cases it with
  | vid v => exact True.intro
  | interval lo hi =>
    rw [takeElement_interval hrows] at h
    by_cases hlt : ((heldHi items).overwrite hi).value < ((heldLo items).overwrite lo).value
    · rw [if_pos hlt] at h
      obtain rfl := Except.ok.inj h
      have hnil : numRows (Item.interval lo hi).vids = [] := by simpa [Flow.rows] using hfl
      exact absurd (List.map_eq_nil_iff.1 hnil) (Item.vids_ne_nil hasc)
    · rw [if_neg hlt] at h
      split at h
      · obtain rfl := Except.ok.inj h
        obtain ⟨hmin, hmax⟩ := range'_inj (Nat.not_lt.1 hlt) hasc (numRows_inj (List.append_cancel_left hfl))
        exact (notShorter_iff items lo hi).2
          ⟨((heldLo items).overwrite_value lo).2.1 hmin, ((heldHi items).overwrite_value hi).2.1 hmax⟩
      · cases h

end Item

/-! ## Lists -/

/-- All numbers are VLAN ids, and intervals ascend. -/
def Item.Admitted : Item → Prop
  | .vid v => v.val ≤ 4094
  | .interval lo hi => lo.val ≤ hi.val ∧ hi.val ≤ 4094

instance : ∀ it : Item, Decidable it.Admitted
  | .vid v => inferInstanceAs (Decidable (v.val ≤ 4094))
  | .interval lo hi => inferInstanceAs (Decidable (lo.val ≤ hi.val ∧ hi.val ≤ 4094))

theorem Item.Admitted.ascending : ∀ {it : Item}, it.Admitted → it.Ascending
  | .vid _, _ => True.intro
  | .interval _ _, h => h.1

/-- The function is right about a text: it stays within its objects, the
array included, and when the text is a list, the rows take all its VLAN ids
and hold them in order. It has no way to fail. -/
def Right (rowNum : Nat) (colNum : Width) (vids : List Char) : Prop :=
  ∃ rows, assembleVidsAsArray rowNum colNum.val (some vids) = .ok rows ∧
    ∀ items, items ≠ [] → textOf items = vids → (∀ it ∈ items, it.Admitted) → vids.length ≤ MAX_STR_LEN →
      (vidsOf items).length ≤ rowNum ∧ rows = numRows (vidsOf items)

/-- The element does not make the program leave its objects. The first
element is not empty, and none has ten characters. There is a row left for a
number. Something ends the bounds of an interval where they are read, and
there are rows left for what is read. -/
structure Safe (rowNum : Nat) (first : Bool) (l : Locals) (e : List Char) : Prop where
  started : first = true → e ≠ []
  fits : e.length < BASE_TEN
  vid : isSubInterval e = false → l.rows.length < rowNum
  interval : isSubInterval e = true →
    let lo := e.take (lastMinus e 0 0)
    let hi := e.drop (lastMinus e 0 0 + 1)
    lo.length ≤ BASE_FIVE → hi.length ≤ BASE_FIVE →
      ∃ min max, strtol (strncpy l.bufs.minStr lo) = some min ∧ strtol (strncpy l.bufs.maxStr hi) = some max ∧
        (min ≤ max → l.rows.length + (max + 1 - min).toNat ≤ rowNum)

/-- The element after `pre` is safe, and no shorter than the one before. A
text that is too long is not looked at, and after an interval that descends
or is too long nothing is. -/
def Keeps (rowNum : Nat) (colNum : Width) (pre : List (List Char)) (e : List Char) : Prop :=
  (join (pre ++ [e])).length ≤ MAX_STR_LEN → ∀ l, parse rowNum colNum.val pre = .ok (.next l) →
    Safe rowNum pre.isEmpty l e ∧
      ∀ (items : List Item) (it : Item), pre = items.map Item.text → e = it.text → (∀ it ∈ items, it.Admitted) → it.Admitted →
        it.NotShorter items

section Element

variable {rowNum colNum : Nat} {first : Bool} {l : Locals} {e : List Char}

theorem writeRows_ok {rows rows' : Rows} {texts : List (List Char)} (h : rows.length ≤ rowNum)
    (hw : writeRows rowNum colNum rows texts = .ok rows') : rows'.length ≤ rowNum := by
  rw [writeRows_eq _ _ h] at hw
  split at hw
  · obtain rfl := Except.ok.inj hw
    simpa using ‹_›
  · cases hw

theorem takeElement_rows (hrows : l.rows.length ≤ rowNum) {fl : Flow}
    (h : takeElement rowNum colNum l e = .ok fl) : fl.rows.length ≤ rowNum := by
  have hmap : ∀ {texts bufs}, ((writeRows rowNum colNum l.rows texts).map fun rows => Flow.next ⟨bufs, rows⟩) = .ok fl →
      fl.rows.length ≤ rowNum := by
    intro texts bufs hw
    cases hr : writeRows rowNum colNum l.rows texts with
    | error fault => rw [hr] at hw; cases hw
    | ok rows =>
      rw [hr] at hw
      obtain rfl := Except.ok.inj hw
      exact writeRows_ok hrows hr
  rw [takeElement] at h
  split at h
  · simp only at h
    split at h
    · cases h
    · obtain rfl := Except.ok.inj h
      exact hrows
    · exact hmap h
  · exact hmap h

theorem element_rows (hrows : l.rows.length ≤ rowNum) {fl : Flow}
    (h : element rowNum colNum first l e = .ok fl) : fl.rows.length ≤ rowNum := by
  rw [element] at h
  split at h
  · cases h
  · split at h
    · cases h
    · exact takeElement_rows hrows h

theorem parse_rows {pre : List (List Char)} {fl : Flow} (h : parse rowNum colNum pre = .ok fl) :
    fl.rows.length ≤ rowNum := by
  induction pre using List.reverseRecOn generalizing fl with
  | nil =>
    obtain rfl := Except.ok.inj h
    exact Nat.zero_le _
  | append_singleton pre e ih =>
    rw [parse, parseFrom_concat, ← parse] at h
    cases hp : parse rowNum colNum pre with
    | error fault => rw [hp] at h; cases h
    | ok r =>
      rw [hp] at h
      cases r with
      | done rows =>
        obtain rfl := Except.ok.inj h
        exact ih hp
      | next l => exact element_rows (ih hp) h

theorem not_ok_of_error {α : Type} (x : Fault) : ¬ ∃ a : α, (.error x : Except Fault α) = .ok a := by
  rintro ⟨a, h⟩
  cases h

theorem map_isOk {α β : Type} (r : Except Fault α) (f : α → β) : (∃ b, r.map f = .ok b) ↔ ∃ a, r = .ok a := by
  cases r with
  | error fault => exact iff_of_false (not_ok_of_error _) (not_ok_of_error _)
  | ok a => exact iff_of_true ⟨_, rfl⟩ ⟨_, rfl⟩

theorem writeRows_isOk {rows : Rows} (h : rows.length ≤ rowNum) (texts : List (List Char)) :
    (∃ rows', writeRows rowNum colNum rows texts = .ok rows') ↔ rows.length + texts.length ≤ rowNum := by
  rw [writeRows_eq _ _ h]
  split
  · exact iff_of_true ⟨_, rfl⟩ ‹_›
  · exact iff_of_false (not_ok_of_error _) ‹_›

theorem safe_iff (hrows : l.rows.length ≤ rowNum) :
    (∃ fl, element rowNum colNum first l e = .ok fl) ↔ Safe rowNum first l e := by
  rw [element]
  by_cases hstart : first = true ∧ e = []
  · rw [if_pos hstart]
    exact iff_of_false (not_ok_of_error _) fun h => h.started hstart.1 hstart.2
  rw [if_neg hstart]
  rw [not_and] at hstart
  by_cases hlong : BASE_TEN ≤ e.length
  · rw [if_pos hlong]
    exact iff_of_false (not_ok_of_error _) fun h => Nat.not_lt.2 hlong h.fits
  rw [if_neg hlong, takeElement]
  cases hsub : isSubInterval e with
  | false =>
    rw [if_neg (by decide), map_isOk, writeRows_isOk hrows]
    exact ⟨fun h => ⟨hstart, Nat.not_le.1 hlong, fun _ => h, fun hi => absurd (hsub.symm.trans hi) (by decide)⟩,
      fun h => h.vid hsub⟩
  | true =>
    rw [if_pos rfl]
    have hsafe : Safe rowNum first l e ↔ _ :=
      ⟨fun h => h.interval hsub, fun h => ⟨hstart, Nat.not_le.1 hlong, fun hf => absurd (hsub.symm.trans hf) (by decide),
        fun _ => h⟩⟩
    rw [hsafe]
    simp only [intervalBounds]
    by_cases hbound : BASE_FIVE < (e.take (lastMinus e 0 0)).length ∨ BASE_FIVE < (e.drop (lastMinus e 0 0 + 1)).length
    · rw [if_pos hbound]
      exact iff_of_true ⟨_, rfl⟩ fun h1 h2 => absurd hbound (by omega)
    · rw [if_neg hbound]
      have hshort : (e.take (lastMinus e 0 0)).length ≤ BASE_FIVE ∧ (e.drop (lastMinus e 0 0 + 1)).length ≤ BASE_FIVE := by
        omega
      simp only [hshort.1, hshort.2, true_imp_iff]
      cases strtol (strncpy l.bufs.minStr (e.take (lastMinus e 0 0))) with
      | none => exact iff_of_false (not_ok_of_error _) (by simp)
      | some min =>
        cases strtol (strncpy l.bufs.maxStr (e.drop (lastMinus e 0 0 + 1))) with
        | none => exact iff_of_false (not_ok_of_error _) (by simp)
        | some max =>
          simp only [Option.some.injEq, exists_and_left, exists_eq_left']
          by_cases hlt : max < min
          · rw [if_pos hlt]
            exact iff_of_true ⟨_, rfl⟩ fun hle => absurd hlt (Int.not_lt.2 hle)
          · rw [if_neg hlt]
            simp only [map_isOk, writeRows_isOk hrows]
            rw [List.length_map, vidRange, List.length_map, List.length_range, show max - min + 1 = max + 1 - min by omega]
            exact (imp_iff_right (Int.not_lt.1 hlt)).symm

end Element

section Join

theorem join_concat {es : List (List Char)} (h : es ≠ []) (e : List Char) : join (es ++ [e]) = join es ++ ',' :: e := by
  induction es with
  | nil => exact absurd rfl h
  | cons a es ih =>
    cases es with
    | nil => simp [join]
    | cons b es =>
      have hrest := ih (List.cons_ne_nil _ _)
      simp only [join, List.cons_append, List.intercalate_cons_cons, List.append_assoc] at hrest ⊢
      rw [hrest]

theorem length_join_le (es : List (List Char)) (e : List Char) : (join es).length ≤ (join (es ++ [e])).length := by
  by_cases h : es = []
  · subst h; exact Nat.zero_le _
  · rw [join_concat h, List.length_append]; exact Nat.le_add_right ..

theorem map_text_eq {items : List Item} {es : List (List Char)} (hi : items ≠ []) (hne : es ≠ [])
    (hc : ∀ e ∈ es, ',' ∉ e) : textOf items = join es ↔ es = items.map Item.text := by
  constructor
  · intro h
    have hit : ∀ e ∈ items.map Item.text, ',' ∉ e := by
      intro e he
      obtain ⟨it, -, rfl⟩ := List.mem_map.1 he
      exact it.comma_notMem_text
    rw [← List.splitOn_intercalate ',' hc hne, ← List.splitOn_intercalate ',' hit (by simpa using hi)]
    exact congrArg _ h.symm
  · rintro rfl; rfl

variable {rowNum : Nat} {colNum : Width} {es : List (List Char)}

theorem right_long (hne : es ≠ []) (hc : ∀ e ∈ es, ',' ∉ e) (hlen : MAX_STR_LEN < (join es).length) :
    Right rowNum colNum (join es) := by
  refine ⟨[], ?_, fun _ _ _ _ hle => absurd hlen (Nat.not_lt.2 hle)⟩
  rw [assemble_join hne hc, if_pos hlen]

theorem right_iff (hne : es ≠ []) (hc : ∀ e ∈ es, ',' ∉ e) (hlen : (join es).length ≤ MAX_STR_LEN) :
    Right rowNum colNum (join es) ↔ ∃ fl, parse rowNum colNum.val es = .ok fl ∧
      ∀ items : List Item, es = items.map Item.text → (∀ it ∈ items, it.Admitted) →
        (vidsOf items).length ≤ rowNum ∧ fl.rows = numRows (vidsOf items) := by
  rw [Right, assemble_join hne hc, if_neg (Nat.not_lt.2 hlen)]
  have hitems : ∀ {items : List Item}, es = items.map Item.text → items ≠ [] := by
    rintro items rfl rfl
    exact hne rfl
  constructor
  · rintro ⟨rows, hrows, h⟩
    cases hp : parse rowNum colNum.val es with
    | error fault => rw [hp] at hrows; cases hrows
    | ok fl =>
      rw [hp] at hrows
      obtain rfl := Except.ok.inj hrows
      refine ⟨fl, rfl, fun items he hadm => ?_⟩
      exact h items (hitems he) ((map_text_eq (hitems he) hne hc).2 he) hadm hlen
  · rintro ⟨fl, hp, h⟩
    refine ⟨fl.rows, by rw [hp]; rfl, fun items hi ht hadm _ => ?_⟩
    exact h items ((map_text_eq hi hne hc).1 ht) hadm

end Join

/-! ## Runs -/

/-- What is known of the elements before the next one. -/
structure Parsed (rowNum : Nat) (colNum : Width) (pre : List (List Char)) : Prop where
  comma : ∀ e ∈ pre, ',' ∉ e
  read : (join pre).length ≤ MAX_STR_LEN → ∀ items : List Item, pre = items.map Item.text →
    (∀ it ∈ items, it.Admitted) →
      parse rowNum colNum.val pre = .ok (.next ⟨holding (heldLo items) (heldHi items), numRows (vidsOf items)⟩)

section Step

variable {rowNum : Nat} {colNum : Width} {pre : List (List Char)} {e : List Char}

theorem parse_concat : parse rowNum colNum.val (pre ++ [e]) =
    match parse rowNum colNum.val pre with
    | .ok (.next l) => element rowNum colNum.val pre.isEmpty l e
    | r => r := by
  rw [parse, parseFrom_concat]; rfl

theorem map_concat {items : List Item} (h : pre ++ [e] = items.map Item.text) :
    ∃ items' it, items = items' ++ [it] ∧ pre = items'.map Item.text ∧ e = it.text := by
  induction items using List.reverseRecOn with
  | nil => simp at h
  | append_singleton items it _ =>
    rw [List.map_append, List.map_singleton] at h
    obtain ⟨h1, h2⟩ := List.append_inj' h rfl
    exact ⟨items, it, rfl, h1, List.singleton_inj.1 h2⟩

theorem forall_mem_concat {items : List Item} {it : Item} (h : ∀ i ∈ items ++ [it], i.Admitted) :
    (∀ i ∈ items, i.Admitted) ∧ it.Admitted :=
  ⟨fun i hi => h i (List.mem_append_left _ hi), h it (by simp)⟩

/-- A safe item no shorter than the one before is written as it should be. -/
theorem parse_item {items : List Item} {it : Item} {l : Locals} (hK : Parsed rowNum colNum pre)
    (hlen : (join pre).length ≤ MAX_STR_LEN) (hp : parse rowNum colNum.val pre = .ok (.next l))
    (hpre : pre = items.map Item.text) (hadm : ∀ i ∈ items, i.Admitted) (hit : it.Admitted)
    (hsafe : Safe rowNum pre.isEmpty l it.text) (hns : it.NotShorter items) :
    element rowNum colNum.val pre.isEmpty l it.text =
        .ok (.next ⟨holding (heldLo (items ++ [it])) (heldHi (items ++ [it])), numRows (vidsOf (items ++ [it]))⟩) ∧
      (vidsOf (items ++ [it])).length ≤ rowNum := by
  have hrows : l.rows.length ≤ rowNum := parse_rows hp
  obtain rfl : l = _ := Flow.next.inj (Except.ok.inj (hp.symm.trans (hK.read hlen items hpre hadm)))
  have hok : ∃ fl, element rowNum colNum.val pre.isEmpty _ it.text = .ok fl := (safe_iff hrows).2 hsafe
  have hel : element rowNum colNum.val pre.isEmpty _ it.text = _ := element_notShorter hrows hns hit.ascending
  rw [hel] at hok ⊢
  dsimp only at hok ⊢
  rw [length_numRows] at hok ⊢
  by_cases hfit : (vidsOf items).length + it.vids.length ≤ rowNum
  · rw [if_pos hfit, ← numRows_append, ← vidsOf_concat]
    exact ⟨rfl, by rw [vidsOf_concat, List.length_append]; exact hfit⟩
  · rw [if_neg hfit] at hok
    exact nomatch hok.choose_spec

/-- Right about a text, a function that reads one element more is right
exactly if that element meets `Keeps`. -/
theorem right_concat_iff (he : ',' ∉ e) (hK : Parsed rowNum colNum pre)
    (hI : pre ≠ [] → Right rowNum colNum (join pre)) :
    Right rowNum colNum (join (pre ++ [e])) ↔ Keeps rowNum colNum pre e := by
  have hne : pre ++ [e] ≠ [] := by simp
  have hc : ∀ x ∈ pre ++ [e], ',' ∉ x := fun x hx =>
    (List.mem_append.1 hx).elim (hK.comma x) fun h => (List.mem_singleton.1 h) ▸ he
  by_cases hlen : (join (pre ++ [e])).length ≤ MAX_STR_LEN
  swap
  · exact iff_of_true (right_long hne hc (Nat.not_le.1 hlen)) fun h => absurd h hlen
  have hlen' : (join pre).length ≤ MAX_STR_LEN := Nat.le_trans (length_join_le pre e) hlen
  rw [right_iff hne hc hlen, parse_concat]
  cases hp : parse rowNum colNum.val pre with
  | error fault =>
    have hpre : pre ≠ [] := by
      rintro rfl
      exact nomatch hp
    obtain ⟨fl, hok, -⟩ := (right_iff hpre hK.comma hlen').1 (hI hpre)
    exact nomatch hp.symm.trans hok
  | ok r =>
    cases r with
    | done rows =>
      refine iff_of_true ⟨_, rfl, fun items hitems hadm => ?_⟩ fun _ l hl => ?_
      · obtain ⟨items, it, rfl, hpre, rfl⟩ := map_concat hitems
        exact nomatch hp.symm.trans (hK.read hlen' items hpre (forall_mem_concat hadm).1)
      · exact nomatch hp.symm.trans hl
    | next l =>
      have hrows : l.rows.length ≤ rowNum := parse_rows hp
      constructor
      · rintro ⟨fl, hfl, hitems⟩ - l' hl'
        obtain rfl : l = l' := Flow.next.inj (Except.ok.inj (hp.symm.trans hl'))
        refine ⟨(safe_iff hrows).1 ⟨fl, hfl⟩, fun items it hpre heq hadm hit => ?_⟩
        subst heq
        obtain rfl : l = _ := Flow.next.inj (Except.ok.inj (hp.symm.trans (hK.read hlen' items hpre hadm)))
        refine notShorter_of_rows hrows hit.ascending hfl ?_
        rw [← numRows_append, ← vidsOf_concat]
        refine (hitems (items ++ [it]) (by rw [hpre]; simp) fun i hi => ?_).2
        exact (List.mem_append.1 hi).elim (hadm i) fun h => (List.mem_singleton.1 h) ▸ hit
      · intro hk
        obtain ⟨hsafe, hns⟩ := hk hlen l hp
        obtain ⟨fl, hfl⟩ := (safe_iff hrows).2 hsafe
        refine ⟨fl, hfl, fun items hitems hadm => ?_⟩
        obtain ⟨items, it, rfl, hpre, rfl⟩ := map_concat hitems
        obtain ⟨hadm, hit⟩ := forall_mem_concat hadm
        obtain ⟨hel, hfit⟩ := parse_item hK hlen' hp hpre hadm hit hsafe (hns items it hpre rfl hadm hit)
        obtain rfl := Except.ok.inj (hfl.symm.trans hel)
        exact ⟨hfit, rfl⟩

theorem parsed_concat (he : ',' ∉ e) (hK : Parsed rowNum colNum pre) (hk : Keeps rowNum colNum pre e) :
    Parsed rowNum colNum (pre ++ [e]) := by
  refine ⟨fun x hx => (List.mem_append.1 hx).elim (hK.comma x) fun h => (List.mem_singleton.1 h) ▸ he, ?_⟩
  intro hlen items hitems hadm
  have hlen' : (join pre).length ≤ MAX_STR_LEN := Nat.le_trans (length_join_le pre e) hlen
  obtain ⟨items, it, rfl, hpre, rfl⟩ := map_concat hitems
  obtain ⟨hadm, hit⟩ := forall_mem_concat hadm
  have hp := hK.read hlen' items hpre hadm
  obtain ⟨hsafe, hns⟩ := hk hlen _ hp
  rw [parse_concat, hp]
  exact (parse_item hK hlen' hp hpre hadm hit hsafe (hns items it hpre rfl hadm hit)).1

end Step

theorem parsed_nil (rowNum : Nat) (colNum : Width) : Parsed rowNum colNum [] := by
  refine ⟨nofun, fun _ items hitems _ => ?_⟩
  obtain rfl := List.map_eq_nil_iff.1 hitems.symm
  rfl

theorem comma_notMem_splitOn (vids : List Char) : ∀ e ∈ vids.splitOn ',', ',' ∉ e := by
  induction vids with
  | nil => simp
  | cons c vids ih =>
    rw [List.splitOn_cons_eq_if_modifyHead]
    split
    · simpa using ih
    · rename_i hc
      have hne := List.splitOn_ne_nil ',' vids
      cases hs : vids.splitOn ',' with
      | nil => exact absurd hs hne
      | cons e es =>
        rw [hs] at ih
        rw [List.modifyHead_cons, List.forall_mem_cons]
        rw [List.forall_mem_cons] at ih
        refine ⟨fun hmem => ?_, ih.2⟩
        rcases List.mem_cons.1 hmem with rfl | hmem
        · exact hc (beq_self_eq_true _)
        · exact ih.1 hmem

/-- **Lists of VLAN ids.** For every text, the function is right about the
text and every text it begins with, cut at a comma, if and only if each
element meets `Keeps`. -/
theorem assembledOk_iff (rowNum : Nat) (colNum : Width) (vids : List Char) :
    (∀ pre suf, vids.splitOn ',' = pre ++ suf → pre ≠ [] → Right rowNum colNum (join pre)) ↔
      Guarded remember (Keeps rowNum colNum) [] (vids.splitOn ',') := by
  have h : ((∀ pre suf, vids.splitOn ',' = pre ++ suf →
      (after remember [] pre ≠ [] → Right rowNum colNum (join (after remember [] pre)))) ∧
        Guarded remember (fun _ _ => True) [] (vids.splitOn ',')) ↔
      Guarded remember (Keeps rowNum colNum) [] (vids.splitOn ',') := by
    refine steps_iff_guarded_of (K := Parsed rowNum colNum) (A := fun e => ',' ∉ e)
      (I := fun pre => pre ≠ [] → Right rowNum colNum (join pre)) (fun pre e he hK _ hk => parsed_concat he hK hk)
      (fun pre e he hK hI => ?_) (parsed_nil rowNum colNum) (fun hne => absurd rfl hne) (comma_notMem_splitOn vids)
    rw [and_true, ← right_concat_iff he hK hI]
    exact imp_iff_right (List.append_ne_nil_of_right_ne_nil pre (List.cons_ne_nil e []))
  rw [and_iff_left (Guarded.trivial _)] at h
  simpa only [after_remember, List.nil_append] using h

/-- An array of five characters a row. -/
def fiveWide : Width := ⟨BASE_FIVE, Nat.le_refl _⟩

def num5 : Num := ⟨5, by decide, by decide⟩
def num7 : Num := ⟨7, by decide, by decide⟩
def num10 : Num := ⟨10, by decide, by decide⟩
def num15 : Num := ⟨15, by decide, by decide⟩

/-- In 10-15,5-7 the lower bound 5 is read as 50 and the upper bound 7 as 75,
from the bounds of the interval before. -/
theorem not_right_shorter :
    ¬ Right BASE_MAX_VID fiveWide (textOf [.interval num10 num15, .interval num5 num7]) := by
  rintro ⟨rows, hrows, h⟩
  obtain ⟨-, rfl⟩ := h [.interval num10 num15, .interval num5 num7] (List.cons_ne_nil _ _) rfl
    (by decide) (by decide +kernel)
  exact absurd hrows (by decide +kernel)

end TsnSwitch.Base
