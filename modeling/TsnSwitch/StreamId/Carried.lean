/-
The FDB carries the identification of a stream exactly when the tree has the
stream identified and with a port (`carriedOk_iff`).

It does so as long as a stream that is deleted finds its own entry first: the
entry is looked up by address and VLAN id, and another stream may have one
for the same pair in the column before. Two smaller slips are part of the
condition. An identification write creates the stream before it checks the
parameters, and a full port mask is taken for an unset one.
-/
import TsnSwitch.StreamId.Streams

namespace TsnSwitch.StreamId

open Fdb Lib

/-! ## What the FDB carries -/

/-- The FDB carries a stream identification entry for `k` with handle `h`. -/
def Carries (b : Brfdb) (k : Key) (h : Handle) : Prop :=
  ∃ c < NCOLS_VLAN, sidKind.fits b k c = true ∧ (slot b k c).streamNo = h

instance (b : Brfdb) (k : Key) (h : Handle) : Decidable (Carries b k h) :=
  inferInstanceAs (Decidable (∃ c < NCOLS_VLAN, _ ∧ _))

/-- No key has two entries with one handle. -/
def OnePerHdl (b : Brfdb) : Prop :=
  ∀ k, ∀ c < NCOLS_VLAN, ∀ c' < NCOLS_VLAN, sidKind.fits b k c = true → sidKind.fits b k c' = true →
    (slot b k c).streamNo = (slot b k c').streamNo → c = c'

theorem Carries.of_strHdl {b : Brfdb} {k : Key} {h : Handle} (hs : strHdl b k = some h) : Carries b k h := by
  obtain ⟨c, hc, he⟩ := Option.map_eq_some_iff.1 hs
  exact ⟨c, List.mem_range.1 (List.mem_of_find?_eq_some hc), List.find?_some hc, he⟩

theorem strHdl_isSome {b : Brfdb} {k : Key} {h : Handle} (hc : Carries b k h) : ∃ h', strHdl b k = some h' := by
  obtain ⟨c, hc, hf, -⟩ := hc
  cases hs : strHdl b k with
  | some h' => exact ⟨h', rfl⟩
  | none =>
    rw [strHdl, Kind.get, Option.map_eq_none_iff, List.find?_eq_none] at hs
    exact absurd hf (hs c (List.mem_range.2 hc))

section Write

variable {b b' : Brfdb} {k k' : Key} {i : Nat} {e : SmacEntry} {h : Handle}

/-- A write of `k`'s slot keeps what other keys carry. -/
theorem carries_other (hw : Writes b k i e b') (hkey : e.key = k) (hk : k' ≠ k)
    (hold : edgxBrfdbIsSidUsed (slot b k i) = true → (slot b k i).key = k) :
    Carries b' k' h ↔ Carries b k' h := by
  refine exists_congr fun c => and_congr_right fun _ => ?_
  obtain ⟨hfit, hval⟩ := Kind.fits_write_other (K := sidKind) hw hkey hk hold c
  rw [hfit]
  refine and_congr_right fun hf => ?_
  rw [show (slot b' k' c).streamNo = (slot b k' c).streamNo from hval hf]

theorem fits_col (hw : Writes b k i e b') {c : Nat} (hc : c ≠ i) :
    sidKind.fits b' k c = sidKind.fits b k c := by
  rw [Kind.fits, Kind.fits, hw.slot_col hc]

theorem fits_self (hw : Writes b k i e b') (hkey : e.key = k) :
    sidKind.fits b' k i = edgxBrfdbIsSidUsed e := by
  rw [Bool.eq_iff_iff, Kind.fits_iff, hw.slot_self]
  exact and_iff_left hkey

theorem OnePerHdl.other (hone : OnePerHdl b) (hw : Writes b k i e b') (hkey : e.key = k)
    (hold : edgxBrfdbIsSidUsed (slot b k i) = true → (slot b k i).key = k)
    (hself : ∀ c < NCOLS_VLAN, c ≠ i → edgxBrfdbIsSidUsed e = true → sidKind.fits b k c = true →
      (slot b k c).streamNo ≠ e.streamNo) : OnePerHdl b' := by
  intro k' c hc c' hc' hf hf' he
  by_cases hk : k' = k
  · subst hk
    by_cases hci : c = i <;> by_cases hci' : c' = i
    · exact hci.trans hci'.symm
    · subst hci
      rw [fits_self hw hkey] at hf
      rw [fits_col hw hci'] at hf'
      rw [hw.slot_self, hw.slot_col hci'] at he
      exact absurd he.symm (hself c' hc' hci' hf hf')
    · subst hci'
      rw [fits_self hw hkey] at hf'
      rw [fits_col hw hci] at hf
      rw [hw.slot_self, hw.slot_col hci] at he
      exact absurd he (hself c hc hci hf' hf)
    · rw [fits_col hw hci] at hf
      rw [fits_col hw hci'] at hf'
      rw [hw.slot_col hci, hw.slot_col hci'] at he
      exact hone k' c hc c' hc' hf hf' he
  · obtain ⟨hfit, hval⟩ := Kind.fits_write_other (K := sidKind) hw hkey hk hold c
    obtain ⟨hfit', hval'⟩ := Kind.fits_write_other (K := sidKind) hw hkey hk hold c'
    rw [hfit] at hf
    rw [hfit'] at hf'
    exact hone k' c hc c' hc' hf hf' ((hval hf).symm.trans (he.trans (hval' hf')))

end Write

theorem carries_reg (b : Brfdb) (reg : SmacEntry) : Carries { b with reg } = Carries b := rfl

/-- Adding an entry the FDB does not carry: it is carried from then on, or
there is no room and nothing changes. -/
theorem carries_add {b : Brfdb} (hone : OnePerHdl b) (sid : Fdb.Sid) (hno : ¬ Carries b sid.key sid.strHdl) :
    let r := edgxBrfdbSidAdd b sid
    (r.1 = (0, true) ∧ OnePerHdl r.2 ∧
      ∀ k h, Carries r.2 k h ↔ Carries b k h ∨ (k = sid.key ∧ h = sid.strHdl)) ∨
    (r.1 = (-ENOMEM, false) ∧ r.2 = { b with reg := slot b sid.key 1 }) := by
  intro r
  rcases sidAdd_spec b sid with ⟨i, hi, -, hr, hu, e, hw, hkey, hhdl, -, hsu, -⟩ | ⟨i, hi, -, hf, hs, -⟩ | h
  · refine .inl ⟨hr, ?_, fun k h => ?_⟩
    · refine hone.other hw hkey (fun h => absurd (hu.symm.trans h) Bool.false_ne_true)
        fun c hc _ _ hf he => hno ⟨c, hc, hf, he.trans hhdl⟩
    · by_cases hk : k = sid.key
      · subst hk
        constructor
        · rintro ⟨c, hc, hf, he⟩
          by_cases hci : c = i
          · subst hci
            rw [hw.slot_self] at he
            exact .inr ⟨rfl, he.symm.trans hhdl⟩
          · rw [fits_col hw hci] at hf
            rw [hw.slot_col hci] at he
            exact .inl ⟨c, hc, hf, he⟩
        · rintro (⟨c, hc, hf, he⟩ | ⟨-, rfl⟩)
          · -- the written slot was not in use
            have hci : c ≠ i := by
              rintro rfl
              exact Bool.false_ne_true (hu.symm.trans (Kind.fits_iff.1 hf).1)
            exact ⟨c, hc, (fits_col hw hci).trans hf, by rw [hw.slot_col hci]; exact he⟩
          · exact ⟨i, hi, (fits_self hw hkey).trans hsu, by rw [hw.slot_self]; exact hhdl⟩
      · rw [carries_other hw hkey hk fun h => absurd (hu.symm.trans h) Bool.false_ne_true]
        exact (or_iff_left fun h => hk h.1).symm
  · exact absurd ⟨i, hi, hf, hs⟩ hno
  · exact .inr h

/-- Deleting by key removes the first entry of the key, whosever it is. -/
theorem carries_del {b : Brfdb} (hone : OnePerHdl b) (k : Key) :
    let r := edgxBrfdbSidDel b k.1 k.2
    r.1 = 0 ∧ OnePerHdl r.2 ∧ (∀ k' h, Carries r.2 k' h ↔ Carries b k' h ∧ ¬ (k' = k ∧ strHdl b k = some h)) ∧
      fdbKind.get r.2 = fdbKind.get b := by
  intro r
  obtain ⟨hr, ⟨i, hfind, e, hw, hkey, hm, hsu, hfu⟩ | ⟨hnone, hb⟩⟩ := sidDel_spec b k
  · have hi : i < NCOLS_VLAN := List.mem_range.1 (List.mem_of_find?_eq_some hfind)
    have hfit : sidKind.fits b k i = true := List.find?_some hfind
    have hold := (Kind.fits_iff.1 hfit).2
    have hhdl : strHdl b k = some (slot b k i).streamNo := by
      rw [strHdl, Kind.get, show sidKind.ncols = NCOLS_VLAN from rfl, hfind]; rfl
    refine ⟨hr, ?_, fun k' h => ?_, ?_⟩
    · exact hone.other hw hkey (fun _ => hold) fun _ _ _ hu => absurd (hsu.symm.trans hu) Bool.false_ne_true
    · by_cases hk : k' = k
      · subst hk
        rw [hhdl, Option.some.injEq]
        constructor
        · rintro ⟨c, hc, hf, he⟩
          have hci : c ≠ i := by
            rintro rfl
            rw [fits_self hw hkey, hsu] at hf
            exact Bool.false_ne_true hf
          rw [fits_col hw hci] at hf
          rw [hw.slot_col hci] at he
          exact ⟨⟨c, hc, hf, he⟩, fun h => hci (hone k' c hc i hi hf hfit (he.trans h.2.symm))⟩
        · rintro ⟨⟨c, hc, hf, he⟩, hne⟩
          have hci : c ≠ i := by
            rintro rfl
            exact hne ⟨rfl, he⟩
          exact ⟨c, hc, (fits_col hw hci).trans hf, by rw [hw.slot_col hci]; exact he⟩
      · rw [carries_other hw hkey hk fun _ => hold]
        exact (and_iff_left fun h => hk h.1).symm
    · funext k'
      exact Kind.get_write_keep hw hkey (fun _ => hfu) fun _ _ => ⟨hold, hm⟩
  · have hno : strHdl b k = none := by
      rw [strHdl, Kind.get, show sidKind.ncols = NCOLS_VLAN from rfl, hnone]; rfl
    simp only [r, hr, hb, carries_reg, hno, reduceCtorEq, and_false, not_false_eq_true, and_true,
      implies_true, true_and]
    exact ⟨hone, rfl⟩

/-! ## The correspondence -/

/-- Stream `h` is in the tree, identified with `k` and with a port. -/
def Accepted (s : EdgxSidBr) (k : Key) (h : Handle) : Prop :=
  ∃ sid, s.sidRoot h = some sid ∧ sid.idType ≠ SID_UNKNOWN ∧ sid.key = k ∧ sid.portMask ≠ 0

/-- The FDB carries the streams that are accepted, and no others. -/
def Carried (s : EdgxSidBr) : Prop :=
  ∀ k h, Carries s.fdb k h ↔ Accepted s k h

/-- Nothing the driver or the FDB holds differs. Reading the FDB loads its
register window. -/
structure Unchanged (s s' : EdgxSidBr) : Prop where
  sidRoot : s'.sidRoot = s.sidRoot
  totalCnt : s'.totalCnt = s.totalCnt
  tbl : s'.fdb.tbl = s.fdb.tbl
  sents : s'.fdb.sents = s.fdb.sents

/-- The write may remove its stream. -/
def Op.removes : Op → Bool
  | .delete _ | .portPosDel _ _ => true
  | .identParams _ _ _ | .portPos _ _ => false

/-- A write that fails changes nothing, and one that removes a stream leaves
what the FDB carries for every other handle, and its ports. -/
structure StepOk (s : EdgxSidBr) (op : Op) : Prop where
  error : (step s op).1 ≠ 0 → Unchanged s (step s op).2
  others : op.removes = true → ∀ k, ∀ h ≠ op.strHdl, Carries (step s op).2.fdb k h ↔ Carries s.fdb k h
  ports : op.removes = true → fdbKind.get (step s op).2.fdb = fdbKind.get s.fdb

/-- The correspondence holds all along the run, and every write is as it
should be. -/
def CarriedOk (s : EdgxSidBr) (ops : List Op) : Prop :=
  (∀ pre suf, ops = pre ++ suf → Carried (after step s pre)) ∧ Guarded step StepOk s ops

/-- The first entry of the stream's key, if there is one, is its own. -/
def OwnFirst (b : Brfdb) (sid : EdgxSid) (h : Handle) : Prop :=
  ∀ h' ∈ strHdl b sid.key, h' = h

/-- An identification write of a new stream has parameters that pass the
check. A stream that is removed finds its own entry first, or none. A port
added to the full mask has a bit in it. -/
def Keeps (s : EdgxSidBr) : Op → Prop
  | .identParams h id mem =>
    h < s.maxStreams → s.sidRoot h = none → mem = true → edgxSidCheckIdent s h id = 0
  | .delete h => h < s.maxStreams → ∀ sid ∈ s.sidRoot h, OwnFirst s.fdb sid h
  | .portPos h add => h < s.maxStreams → edgxSidCheckAdd s h add = 0 →
    ∀ sid ∈ s.sidRoot h, sid.portMask = SID_INVALID_RBT → portBit add.port ≠ 0
  | .portPosDel h del => h < s.maxStreams →
    ∀ sid ∈ s.sidRoot h, sid.portMask &&& ~~~portBit del.port = 0 → OwnFirst s.fdb sid h

/-- What such writes keep: every stream is identified, `valid_fdb` is set on
those that have a port, and the FDB has no entry twice. -/
structure Known (s : EdgxSidBr) : Prop where
  sids : ∀ h, ∀ sid ∈ s.sidRoot h, sid.idType ≠ SID_UNKNOWN ∧ (sid.validFdb = true ↔ sid.portMask ≠ 0)
  fdb : OnePerHdl s.fdb

/-- What one write does: it is right exactly if `Keeps` says so. -/
def StepIff (s : EdgxSidBr) (op : Op) : Prop :=
  (Carried (step s op).2 ∧ StepOk s op ↔ Keeps s op) ∧ (Keeps s op → Known (step s op).2)

theorem step_of_lt {s : EdgxSidBr} {op : Op} (h : op.strHdl < s.maxStreams) : step s op = exec s op :=
  if_neg (BitVec.not_le.2 h)

theorem step_of_le {s : EdgxSidBr} {op : Op} (h : s.maxStreams ≤ op.strHdl) : step s op = (-EINVAL, s) :=
  if_pos h

theorem mem_update {α β : Type} [DecidableEq α] {f : α → Option β} {a a' : α} {o : Option β} {b : β}
    (h : b ∈ Function.update f a o a') : (a' = a ∧ o = some b) ∨ f a' = some b := by
  by_cases ha : a' = a
  · subst ha
    exact .inl ⟨rfl, by simpa using h⟩
  · exact .inr (by simpa [ha] using h)

section Step

variable {s : EdgxSidBr} {h : Handle} {sid : EdgxSid}

/-- A write that fails with nothing changed but the register window. -/
theorem StepIff.same {op : Op} {r : Int} {reg : SmacEntry} (hK : Known s) (hC : Carried s)
    (hs : step s op = (r, { s with fdb := { s.fdb with reg } })) (hk : Keeps s op) : StepIff s op := by
  refine ⟨iff_of_true ⟨?_, ?_, ?_, ?_⟩ hk, fun _ => ?_⟩
  · rw [hs]; exact hC
  · rw [hs]; exact fun _ => ⟨rfl, rfl, rfl, rfl⟩
  · rw [hs]; exact fun _ _ _ _ => Iff.rfl
  · rw [hs]; exact fun _ => rfl
  · rw [hs]; exact ⟨hK.sids, hK.fdb⟩

/-! ### Identification -/

/-- The tree with a new stream. -/
def created (s : EdgxSidBr) (h : Handle) (sid : EdgxSid) : EdgxSidBr :=
  { s with sidRoot := Function.update s.sidRoot h (some sid), totalCnt := s.totalCnt + 1 }

def identified (id : IdentParams) : EdgxSid := { newSid with vid := id.vid, idType := id.idType, addr := id.addr }

/-- A new stream has no port yet, so identifying it does not reach the FDB. -/
theorem identParamsWrite_new (hh : h < s.maxStreams) (hno : s.sidRoot h = none) (id : IdentParams) :
    identParamsWrite s h id true = if edgxSidCheckIdent s h id ≠ 0 then (-EINVAL, created s h newSid)
      else (0, created s h (identified id)) := by
  have hc : edgxSidTryCreate s h true = (0, created s h newSid) := by
    rw [edgxSidTryCreate, if_neg (BitVec.not_le.2 hh), if_neg (by simp [hno]), if_neg (by decide)]; rfl
  have hroot : (created s h newSid).sidRoot h = some newSid := Function.update_self ..
  have happly : ∀ b, edgxSidApplySid b h (identified id) = ((0, identified id), b) := fun b =>
    if_neg fun hm => hm.2 rfl
  simp only [identParamsWrite, hc, if_true, edgxSidTryIdentAdd, hroot]
  refine if_congr Iff.rfl rfl ?_
  rw [if_neg (by decide)]
  simp only [show ({ newSid with vid := id.vid, idType := id.idType, addr := id.addr } : EdgxSid) = identified id
    from rfl, happly, ne_eq, not_true_eq_false, if_false]
  rw [show (created s h newSid).sidRoot = Function.update s.sidRoot h (some newSid) from rfl, Function.update_idem]
  rfl

theorem identParamsWrite_fails {mem : Bool} {r : Int} (hc : edgxSidTryCreate s h mem = (r, s)) (hr : r ≠ 0)
    (id : IdentParams) : identParamsWrite s h id mem = (r, s) := by
  simp only [identParamsWrite, hc, hr, if_false]

theorem checkIdent_type {id : IdentParams} (hc : edgxSidCheckIdent s h id = 0) : id.idType = SID_NULL := by
  by_contra hne
  rw [edgxSidCheckIdent, if_pos hne] at hc
  exact absurd hc (by decide)

theorem identParams_iff (hK : Known s) (hC : Carried s) (id : IdentParams) (mem : Bool) :
    StepIff s (.identParams h id mem) := by
  by_cases hh : h < s.maxStreams
  swap
  · exact .same hK hC (step_of_le (BitVec.not_lt.1 hh)) fun hlt => absurd hlt hh
  have hstep : step s (.identParams h id mem) = identParamsWrite s h id mem := step_of_lt hh
  cases hno : s.sidRoot h with
  | some sid =>
    have hc : edgxSidTryCreate s h mem = (-EEXIST, s) := by
      rw [edgxSidTryCreate, if_neg (BitVec.not_le.2 hh), if_pos (by simp [hno])]
    refine .same hK hC (hstep.trans (identParamsWrite_fails hc (by decide) id)) fun _ hn => ?_
    rw [hno] at hn; cases hn
  | none =>
    cases mem with
    | false =>
      have hc : edgxSidTryCreate s h false = (-ENOMEM, s) := by
        rw [edgxSidTryCreate, if_neg (BitVec.not_le.2 hh), if_neg (by simp [hno]), if_pos rfl]
      exact .same hK hC (hstep.trans (identParamsWrite_fails hc (by decide) id)) fun _ _ => nofun
    | true =>
      rw [identParamsWrite_new hh hno] at hstep
      by_cases hc : edgxSidCheckIdent s h id = 0
      · rw [if_neg (not_not.2 hc)] at hstep
        refine ⟨iff_of_true ⟨?_, ?_, nofun, nofun⟩ fun _ _ _ => hc, fun _ => ?_⟩
        · rw [hstep]
          intro k h'
          refine (hC k h').trans (exists_congr fun sid => ?_)
          by_cases he : h' = h
          · subst he
            refine iff_of_false (fun hs => ?_) fun hs => ?_
            · rw [hno] at hs; cases hs.1
            · obtain rfl : identified id = sid := by simpa [created] using hs.1
              exact hs.2.2.2 rfl
          · simp [created, he]
        · rw [hstep]; exact fun hne => absurd rfl hne
        · rw [hstep]
          refine ⟨fun h' sid hs => ?_, hK.fdb⟩
          rcases mem_update hs with ⟨-, hs⟩ | hs
          · obtain rfl := Option.some.inj hs
            refine ⟨?_, iff_of_false Bool.false_ne_true fun h0 => h0 rfl⟩
            rw [show (identified id).idType = id.idType from rfl, checkIdent_type hc]
            decide
          · exact hK.sids h' sid hs
      · rw [if_pos hc] at hstep
        refine ⟨iff_of_false (fun hok => ?_) fun hk => hc (hk hh hno rfl), fun hk => absurd (hk hh hno rfl) hc⟩
        -- the stream stays in the tree though the write failed
        have hroot := (hok.2.error (by rw [hstep]; exact (by decide : -EINVAL ≠ 0))).sidRoot
        rw [hstep] at hroot
        have := congrFun hroot h
        simp [created, hno] at this

/-! ### Removal -/

/-- The state without stream `h`, which was `sid`. -/
def removed (s : EdgxSidBr) (h : Handle) (sid : EdgxSid) : EdgxSidBr :=
  { s with sidRoot := Function.update s.sidRoot h none, totalCnt := s.totalCnt - 1
           fdb := (edgxBrfdbSidDel s.fdb sid.addr sid.vid).2 }

theorem edgxSidDelEntry_eq (s : EdgxSidBr) (h : Handle) (sid : EdgxSid) :
    edgxSidDelEntry s h sid = (0, removed s h sid) := by
  have hr : (edgxBrfdbSidDel s.fdb sid.addr sid.vid).1 = 0 := (sidDel_spec s.fdb sid.key).1
  simp only [edgxSidDelEntry, hr, ne_eq, not_true_eq_false, if_false]
  rfl

/-- A removal takes the identification of another stream exactly if that is
the first entry of the key. -/
theorem removed_iff {op : Op} (hK : Known s) (hC : Carried s) (hop : op.strHdl = h) (hrem : op.removes = true)
    (hsid : s.sidRoot h = some sid) (hs : step s op = (0, removed s h sid)) (hk : Keeps s op ↔ OwnFirst s.fdb sid h) : StepIff s op := by
  obtain ⟨-, hone, hdel, hports⟩ := carries_del hK.fdb sid.key
  replace hdel : ∀ k h', Carries (removed s h sid).fdb k h' ↔
      Carries s.fdb k h' ∧ ¬ (k = sid.key ∧ strHdl s.fdb sid.key = some h') := hdel
  refine ⟨?_, fun _ => ?_⟩
  · rw [hk]
    constructor
    · rintro ⟨-, hok⟩ h' hmem
      by_contra hne
      have hc := Carries.of_strHdl hmem
      rw [← hok.others hrem _ h' (hop ▸ hne), hs, hdel] at hc
      exact hc.2 ⟨rfl, hmem⟩
    · intro hown
      have hothers : ∀ k, ∀ h' ≠ h, Carries (removed s h sid).fdb k h' ↔ Carries s.fdb k h' := fun k h' hne => by
        rw [hdel]
        exact and_iff_left fun hm => hne (hown h' hm.2)
      refine ⟨?_, ?_, ?_, ?_⟩
      · rw [hs]
        intro k h'
        by_cases he : h' = h
        · subst he
          refine iff_of_false (fun hc => ?_) fun ha => ?_
          · obtain ⟨hc, hno⟩ := (hdel k h').1 hc
            obtain ⟨sid', hsid', -, hkey, -⟩ := (hC k h').1 hc
            obtain rfl : sid = sid' := Option.some.inj (hsid.symm.trans hsid')
            subst hkey
            obtain ⟨h'', hm⟩ := strHdl_isSome hc
            exact hno ⟨rfl, hown h'' hm ▸ hm⟩
          · obtain ⟨sid', hsid', -⟩ := ha
            simp [removed] at hsid'
        · rw [hothers k h' he, hC k h']
          simp [Accepted, removed, he]
      · rw [hs]; exact fun hne => absurd rfl hne
      · rw [hs, hop]; exact fun _ => hothers
      · rw [hs]; exact fun _ => hports
  · rw [hs]
    refine ⟨fun h' sid' hs' => ?_, hone⟩
    rcases mem_update hs' with ⟨-, hs'⟩ | hs'
    · cases hs'
    · exact hK.sids h' sid' hs'

theorem delete_iff (hK : Known s) (hC : Carried s) : StepIff s (.delete h) := by
  by_cases hh : h < s.maxStreams
  swap
  · exact .same hK hC (step_of_le (BitVec.not_lt.1 hh)) fun hlt => absurd hlt hh
  have hstep : step s (.delete h) = edgxSidTryDelete s h := step_of_lt hh
  rw [edgxSidTryDelete, if_neg (BitVec.not_le.2 hh)] at hstep
  cases hsid : s.sidRoot h with
  | none =>
    simp only [hsid] at hstep
    exact .same hK hC hstep fun _ sid hs => by rw [hsid] at hs; cases hs
  | some sid =>
    simp only [hsid, edgxSidDelEntry_eq] at hstep
    refine removed_iff hK hC rfl rfl hsid hstep ⟨fun hk => hk hh sid hsid, fun hown _ sid' hs => ?_⟩
    exact Option.some.inj (hsid.symm.trans hs) ▸ hown

/-! ### Ports -/

/-- The state with another port mask for stream `h`, which was `sid`. -/
def remasked (s : EdgxSidBr) (h : Handle) (sid : EdgxSid) (portMask : BitVec 16) : EdgxSidBr :=
  { s with sidRoot := Function.update s.sidRoot h (some { sid with portMask }) }

/-- A stream that had ports and still has some is accepted as before. -/
theorem accepted_remasked (hsid : s.sidRoot h = some sid) (hm : sid.portMask ≠ 0) {m : BitVec 16} (hm' : m ≠ 0)
    (k : Key) (h' : Handle) : Accepted (remasked s h sid m) k h' ↔ Accepted s k h' := by
  by_cases he : h' = h
  · subst he
    constructor
    · rintro ⟨sid', hs', hid, hkey, -⟩
      obtain rfl : { sid with portMask := m } = sid' := by simpa [remasked] using hs'
      exact ⟨sid, hsid, hid, hkey, hm⟩
    · rintro ⟨sid', hs', hid, hkey, -⟩
      obtain rfl := Option.some.inj (hsid.symm.trans hs')
      exact ⟨_, Function.update_self .., hid, hkey, hm'⟩
  · simp [Accepted, remasked, he]

theorem remasked_iff {op : Op} {m : BitVec 16} (hK : Known s) (hC : Carried s) (hsid : s.sidRoot h = some sid)
    (hm : sid.portMask ≠ 0) (hs : step s op = (0, remasked s h sid m)) (hk : Keeps s op ↔ m ≠ 0) :
    StepIff s op := by
  obtain ⟨hid, hvalid⟩ := hK.sids h sid hsid
  constructor
  · rw [hk]
    constructor
    · rintro ⟨hC', -⟩
      -- the FDB still carries the stream
      have hc : Carries s.fdb sid.key h := (hC _ _).2 ⟨sid, hsid, hid, rfl, hm⟩
      rw [hs] at hC'
      obtain ⟨sid', hs', -, -, hm'⟩ := (hC' _ _).1 hc
      obtain rfl : { sid with portMask := m } = sid' := by simpa [remasked] using hs'
      exact hm'
    · intro hm'
      refine ⟨?_, ?_, ?_, ?_⟩
      · rw [hs]
        exact fun k h' => (hC k h').trans (accepted_remasked hsid hm hm' k h').symm
      · rw [hs]; exact fun hne => absurd rfl hne
      · rw [hs]; exact fun _ _ _ _ => Iff.rfl
      · rw [hs]; exact fun _ => rfl
  · intro hkeeps
    rw [hs]
    refine ⟨fun h' sid' hs' => ?_, hK.fdb⟩
    rcases mem_update hs' with ⟨-, hs'⟩ | hs'
    · obtain rfl := Option.some.inj hs'
      exact ⟨hid, iff_of_true (hvalid.2 hm) (hk.1 hkeeps)⟩
    · exact hK.sids h' sid' hs'

theorem portPosDel_iff (hK : Known s) (hC : Carried s) (del : PortPos) : StepIff s (.portPosDel h del) := by
  by_cases hh : h < s.maxStreams
  swap
  · exact .same hK hC (step_of_le (BitVec.not_lt.1 hh)) fun hlt => absurd hlt hh
  have hstep : step s (.portPosDel h del) = edgxSidTryDelPt s h del := step_of_lt hh
  rw [edgxSidTryDelPt] at hstep
  cases hsid : s.sidRoot h with
  | none =>
    simp only [hsid] at hstep
    exact .same hK hC hstep fun _ sid hs => by rw [hsid] at hs; cases hs
  | some sid =>
    simp only [hsid, edgxSidDelEntry_eq] at hstep
    by_cases hm : sid.portMask &&& ~~~portBit del.port = 0
    · rw [if_pos hm] at hstep
      refine removed_iff hK hC rfl rfl hsid ?_ ⟨fun hk => hk hh sid hsid hm, fun hown _ sid' hs _ => ?_⟩
      · rw [hstep, removed, Function.update_idem]; rfl
      · exact Option.some.inj (hsid.symm.trans hs) ▸ hown
    · rw [if_neg hm] at hstep
      refine remasked_iff hK hC hsid (fun h0 => hm (by rw [h0]; exact BitVec.zero_and)) hstep (iff_of_true ?_ hm)
      intro _ sid' hs hm'
      exact absurd (Option.some.inj (hsid.symm.trans hs) ▸ hm') hm

/-- A port mask with `port` added. -/
def withPort (portMask port : BitVec 16) : BitVec 16 :=
  (if portMask = SID_INVALID_RBT then 0 else portMask) ||| portBit port

/-- The addition of a port that passes the check. -/
theorem edgxSidTryPortAdd_eq {add : PortPos} (hc : edgxSidCheckAdd s h add = 0) (hsid : s.sidRoot h = some sid) :
    edgxSidTryPortAdd s h add =
      let sid := { sid with portMask := withPort sid.portMask add.port }
      let ((ret, sid), fdb) := if sid.validFdb then ((0, sid), s.fdb) else edgxSidApplySid s.fdb h sid
      let sid := if ret ≠ 0 then { sid with portMask := sid.portMask &&& ~~~portBit add.port } else sid
      (ret, { s with fdb, sidRoot := Function.update s.sidRoot h (some sid) }) := by
  simp only [edgxSidTryPortAdd, hc, hsid, ne_eq, not_true_eq_false, if_false]
  by_cases hm : sid.portMask = SID_INVALID_RBT
  · simp only [hm, if_true, withPort]
  · simp only [hm, if_false, withPort]

theorem withPort_eq_zero {m port : BitVec 16} (hm : m ≠ 0) :
    withPort m port = 0 ↔ m = SID_INVALID_RBT ∧ portBit port = 0 := by
  by_cases hr : m = SID_INVALID_RBT
  · simp [withPort, hr]
  · simp only [withPort, hr, if_false, false_and, iff_false]
    exact fun h0 => hm (BitVec.or_eq_zero_iff.1 h0).1

/-- A stream in the FDB only gets another port mask. -/
theorem portPos_valid {add : PortPos} (hh : h < s.maxStreams) (hc : edgxSidCheckAdd s h add = 0)
    (hsid : s.sidRoot h = some sid) (hv : sid.validFdb = true) :
    step s (.portPos h add) = (0, remasked s h sid (withPort sid.portMask add.port)) := by
  rw [show step s (.portPos h add) = edgxSidTryPortAdd s h add from step_of_lt hh, edgxSidTryPortAdd_eq hc hsid]
  simp only [hv, if_true, ne_eq, not_true_eq_false, if_false, remasked]

/-- Applying a stream the FDB does not carry. -/
theorem applySid_cases (hK : Known s) (hC : Carried s) (hsid : s.sidRoot h = some sid) (hm : sid.portMask = 0)
    {m : BitVec 16} (hm' : m ≠ 0) :
    let new := { sid with portMask := m }
    (∃ b, edgxSidApplySid s.fdb h new = ((0, { new with validFdb := true }), b) ∧ OnePerHdl b ∧
      ∀ k h', Carries b k h' ↔ Carries s.fdb k h' ∨ (k = sid.key ∧ h' = h)) ∨
    ∃ reg, edgxSidApplySid s.fdb h new = ((-ENOMEM, new), { s.fdb with reg }) := by
  intro new
  have hid := (hK.sids h sid hsid).1
  have hno : ¬ Carries s.fdb (new.toSid h).key (new.toSid h).strHdl := fun hc => by
    obtain ⟨sid', hs', -, -, hmask⟩ := (hC _ _).1 hc
    obtain rfl : sid = sid' := Option.some.inj (hsid.symm.trans hs')
    exact hmask hm
  have happly : edgxSidApplySid s.fdb h new = _ := if_pos ⟨hid, hm'⟩
  rcases carries_add hK.fdb (new.toSid h) hno with ⟨hr, hone, hadd⟩ | ⟨hr, hb⟩
  · refine .inl ⟨_, happly.trans ?_, hone, hadd⟩
    simp [hr]
  · refine .inr ⟨slot s.fdb (new.toSid h).key 1, happly.trans ?_⟩
    simp only [hr, hb, Bool.or_false]
    rw [if_neg (by decide)]

/-- A stream without ports is not in the FDB, and is put there with its first. -/
theorem portPos_first {add : PortPos} (hK : Known s) (hC : Carried s) (hh : h < s.maxStreams)
    (hc : edgxSidCheckAdd s h add = 0) (hsid : s.sidRoot h = some sid) (hm : sid.portMask = 0) :
    StepIff s (.portPos h add) := by
  obtain ⟨hid, hvalid⟩ := hK.sids h sid hsid
  have hv : sid.validFdb = false := Bool.eq_false_iff.2 fun ht => hvalid.1 ht hm
  have hkeeps : Keeps s (.portPos h add) := fun _ _ sid' hs hr => by
    rw [← Option.some.inj (hsid.symm.trans hs), hm] at hr
    exact absurd hr (by decide)
  have hwith : withPort sid.portMask add.port = portBit add.port := by
    rw [withPort, hm, if_neg (by decide)]; exact BitVec.zero_or
  have hself : ({ sid with portMask := 0 } : EdgxSid) = sid := by rw [← hm]
  have hroot : Function.update s.sidRoot h (some sid) = s.sidRoot := by
    rw [← hsid]; exact Function.update_eq_self ..
  have hstep : step s (.portPos h add) = edgxSidTryPortAdd s h add := step_of_lt hh
  rw [edgxSidTryPortAdd_eq hc hsid, hwith] at hstep
  dsimp only at hstep
  rw [if_neg (show ¬ sid.validFdb = true from Bool.eq_false_iff.1 hv)] at hstep
  by_cases hb : portBit add.port = 0
  · -- a port number without a bit in the mask
    have happly : edgxSidApplySid s.fdb h { sid with portMask := portBit add.port } = ((0, sid), s.fdb) := by
      rw [hb, edgxSidApplySid, if_neg fun hne => hne.2 rfl, hself]
    rw [happly] at hstep
    simp only [ne_eq, not_true_eq_false, if_false, hroot] at hstep
    exact .same hK hC hstep hkeeps
  · rcases applySid_cases hK hC hsid hm hb with ⟨b, happly, hone, hadd⟩ | ⟨reg, happly⟩
    · rw [happly] at hstep
      simp only [ne_eq, not_true_eq_false, if_false] at hstep
      refine ⟨iff_of_true ⟨?_, ?_, nofun, nofun⟩ hkeeps, fun _ => ?_⟩
      · rw [hstep]
        intro k h'
        rw [show Carries b k h' ↔ _ from hadd k h', hC k h']
        by_cases he : h' = h
        · subst he
          have hnot : ¬ Accepted s k h' := by
            rintro ⟨sid', hs', -, -, hmask⟩
            exact hmask (Option.some.inj (hsid.symm.trans hs') ▸ hm)
          constructor
          · rintro (ha | ⟨rfl, -⟩)
            · exact absurd ha hnot
            · exact ⟨_, Function.update_self .., hid, rfl, hb⟩
          · rintro ⟨sid', hs', -, hkey, -⟩
            obtain rfl : { sid with portMask := portBit add.port, validFdb := true } = sid' := by simpa using hs'
            exact .inr ⟨hkey.symm, rfl⟩
        · simp [Accepted, he]
      · rw [hstep]; exact fun hne => absurd rfl hne
      · rw [hstep]
        refine ⟨fun h' sid' hs' => ?_, hone⟩
        rcases mem_update hs' with ⟨-, hs'⟩ | hs'
        · obtain rfl := Option.some.inj hs'
          exact ⟨hid, iff_of_true rfl hb⟩
        · exact hK.sids h' sid' hs'
    · -- no room: the port is taken out again
      rw [happly] at hstep
      simp only [ne_eq, show ¬ (-ENOMEM : Int) = 0 by decide, not_false_eq_true, if_true, BitVec.and_not_self,
        hself, hroot] at hstep
      exact .same hK hC hstep hkeeps

theorem portPos_iff (hK : Known s) (hC : Carried s) (add : PortPos) : StepIff s (.portPos h add) := by
  by_cases hh : h < s.maxStreams
  swap
  · exact .same hK hC (step_of_le (BitVec.not_lt.1 hh)) fun hlt => absurd hlt hh
  have hstep : step s (.portPos h add) = edgxSidTryPortAdd s h add := step_of_lt hh
  by_cases hc : edgxSidCheckAdd s h add = 0
  swap
  · rw [edgxSidTryPortAdd, if_pos hc] at hstep
    exact .same hK hC hstep fun _ h0 => absurd h0 hc
  cases hsid : s.sidRoot h with
  | none =>
    simp only [edgxSidTryPortAdd, hc, hsid, ne_eq, not_true_eq_false, if_false] at hstep
    exact .same hK hC hstep fun _ _ sid hs => by rw [hsid] at hs; cases hs
  | some sid =>
    by_cases hm : sid.portMask = 0
    · exact portPos_first hK hC hh hc hsid hm
    · have hv := (hK.sids h sid hsid).2.2 hm
      refine remasked_iff hK hC hsid hm (portPos_valid hh hc hsid hv) ⟨fun hk h0 => ?_, fun h0 _ _ sid' hs hr hb => ?_⟩
      · obtain ⟨hr, hb⟩ := (withPort_eq_zero hm).1 h0
        exact hk hh hc sid hsid hr hb
      · obtain rfl := Option.some.inj (hsid.symm.trans hs)
        exact h0 ((withPort_eq_zero hm).2 ⟨hr, hb⟩)

theorem step_iff (hK : Known s) (hC : Carried s) : ∀ op, StepIff s op
  | .identParams _ id mem => identParams_iff hK hC id mem
  | .delete _ => delete_iff hK hC
  | .portPos _ add => portPos_iff hK hC add
  | .portPosDel _ del => portPosDel_iff hK hC del

end Step

/-! ## Runs -/

theorem init_known (maxStreams numPorts : BitVec 16) (f : NoSidFdb) : Known (init maxStreams numPorts f) := by
  refine ⟨nofun, fun k c hc _ _ hf => ?_⟩
  rw [Kind.fits_iff] at hf
  exact absurd ((f.unused c hc _).symm.trans hf.1) Bool.false_ne_true

theorem init_carried (maxStreams numPorts : BitVec 16) (f : NoSidFdb) : Carried (init maxStreams numPorts f) := by
  intro k h
  refine iff_of_false ?_ ?_
  · rintro ⟨c, hc, hf, -⟩
    rw [Kind.fits_iff] at hf
    exact absurd ((f.unused c hc _).symm.trans hf.1) Bool.false_ne_true
  · rintro ⟨sid, hs, -⟩
    cases hs

/-- **Stream identification.** In a run from an FDB without stream entries,
the FDB carries exactly the accepted streams after every write, no failed
write changes anything and no removal touches another stream, if and only if
every write meets `Keeps`. -/
theorem carriedOk_iff (maxStreams numPorts : BitVec 16) (f : NoSidFdb) (ops : List Op) :
    CarriedOk (init maxStreams numPorts f) ops ↔ Guarded step Keeps (init maxStreams numPorts f) ops :=
  steps_iff_guarded (K := Known) (fun _ op hK hC hk => (step_iff hK hC op).2 hk)
    (fun _ op hK hC => (step_iff hK hC op).1) (init_known maxStreams numPorts f)
    (init_carried maxStreams numPorts f) ops

/-- An empty FDB of 1024 rows. -/
def emptyFdb : NoSidFdb := ⟨emptyTable, fun c _ r => (emptyTable_empty c r).2⟩

/-- A stream of one address and VLAN id. -/
def someIdent : IdentParams := ⟨someMac, SID_TAGGED, 5, SID_NULL⟩

/-- Streams 1 and 2 have the same identification, so each has one of the two
slots of the key. Deleting stream 2 frees the slot of stream 1. -/
theorem not_carriedOk_shared_key :
    ¬ CarriedOk (init 16 4 emptyFdb) [.identParams 1 someIdent true, .identParams 2 someIdent true,
      .portPos 1 ⟨2, OUT_FAC_IN⟩, .portPos 2 ⟨2, OUT_FAC_IN⟩, .delete 2] := by
  intro h
  have hok : Guarded step StepOk (init 16 4 emptyFdb) ([.identParams 1 someIdent true, .identParams 2 someIdent true,
    .portPos 1 ⟨2, OUT_FAC_IN⟩, .portPos 2 ⟨2, OUT_FAC_IN⟩] ++ .delete 2 :: []) := h.2
  exact absurd (hok.at_step.others rfl (someMac, 5) 1 (by decide)) (by decide +kernel)

end TsnSwitch.StreamId
