/-
The admin control lists of the stream gates: `gt_admin_ctrl_list_write` and
`gt_admin_ctrl_list_read` of edge_psfp.c.

The lists of all gates lie one behind the other in one file, and an offset
gives the gate and the entry by division. An entry has gate state and priority
in two bytes, packed into one where the scheduler keeps it. A list written in
any chunks comes back when it is read from its first entry on in one call
(`gclRoundTrip_iff`): the reader behind it fails from any other entry on.
-/
import TsnSwitch.Sched.AdminList

namespace TsnSwitch.Psfp

open Lib
open Sched (EdgxSched SchedTable TabEntry edgxSchedGetEntries edgxSchedSetEntries storeList)

/-! ## Entries -/

/-- `struct psfp_gt_tab_entry`; `ipv` is signed. -/
structure GtTabEntry where
  timeInterval : BitVec 32
  operationName : BitVec 8
  gateState : BitVec 8
  ipv : BitVec 8
  deriving DecidableEq

def PSFP_GT_GATE_MASK : BitVec 8 := 0x01
def PSFP_GT_IPV_ENA_MASK : BitVec 8 := 0x02
def PSFP_GT_IPV_MASK : BitVec 8 := 0x1c
def PSFP_GT_IPV_NULL : BitVec 8 := -1

def edgxPsfpGtMakeStates (gateState ipvEnable : Bool) (ipv : BitVec 8) : BitVec 8 :=
  (if gateState then PSFP_GT_GATE_MASK else 0) ||| (if ipvEnable then PSFP_GT_IPV_ENA_MASK else 0) |||
    ((ipv <<< 2) &&& PSFP_GT_IPV_MASK)

/-- One turn of `edgx_psfp_gt_import_gcl`. -/
def importEntry (e : GtTabEntry) : TabEntry where
  timeInterval := e.timeInterval
  operationName := e.operationName
  gateStates := edgxPsfpGtMakeStates (e.gateState ≠ 0) (0 ≤ e.ipv.toInt) e.ipv

/-- One turn of `edgx_psfp_gt_export_gcl`. -/
def exportEntry (e : TabEntry) : GtTabEntry where
  timeInterval := e.timeInterval
  operationName := e.operationName
  gateState := e.gateStates &&& PSFP_GT_GATE_MASK
  ipv := if e.gateStates &&& PSFP_GT_IPV_ENA_MASK ≠ 0 then (e.gateStates &&& PSFP_GT_IPV_MASK) >>> 2 else PSFP_GT_IPV_NULL

def edgxPsfpGtImportGcl (entries : List GtTabEntry) : List TabEntry := entries.map importEntry
def edgxPsfpGtExportGcl (entries : List TabEntry) : List GtTabEntry := entries.map exportEntry

/-- The priority is none or one of 0 to 7. -/
def GtTabEntry.IpvValid (e : GtTabEntry) : Prop := -1 ≤ e.ipv.toInt ∧ e.ipv.toInt ≤ 7

theorem unpack_ipv : ∀ (gateState : Bool) (ipv : BitVec 8), -1 ≤ ipv.toInt → ipv.toInt ≤ 7 →
    let gateStates := edgxPsfpGtMakeStates gateState (0 ≤ ipv.toInt) ipv
    gateStates &&& PSFP_GT_GATE_MASK = (if gateState then 1 else 0) ∧
      (if gateStates &&& PSFP_GT_IPV_ENA_MASK ≠ 0 then (gateStates &&& PSFP_GT_IPV_MASK) >>> 2 else PSFP_GT_IPV_NULL) = ipv := by
  decide +kernel

/-- Only the gate state comes back changed: any other than 0 as 1. -/
theorem export_import {e : GtTabEntry} (h : e.IpvValid) :
    exportEntry (importEntry e) = { e with gateState := if e.gateState ≠ 0 then 1 else 0 } := by
  obtain ⟨hgate, hipv⟩ := unpack_ipv (e.gateState ≠ 0) e.ipv h.1 h.2
  simp only [decide_eq_true_eq] at hgate
  exact GtTabEntry.mk.injEq .. |>.mpr ⟨rfl, rfl, hgate, hipv⟩

theorem export_import_iff {e : GtTabEntry} (h : e.IpvValid) :
    exportEntry (importEntry e) = e ↔ e.gateState.toNat ≤ 1 := by
  obtain ⟨t, o, g, v⟩ := e
  rw [export_import h]
  simp only [GtTabEntry.mk.injEq, true_and, and_true]
  by_cases hg : g = 0
  · subst hg
    simp
  · have hpos : g.toNat ≠ 0 := fun h0 => hg (BitVec.eq_of_toNat_eq h0)
    rw [if_pos hg, ← BitVec.toNat_inj]
    change 1 = g.toNat ↔ g.toNat ≤ 1
    omega

/-! ## The file -/

def entrySize : Nat := 8

/-- `edgx_sysfs_list_params`: index and number of elements. -/
def edgxSysfsListParams (ofs cnt lsz : Nat) : Option (Nat × Nat) :=
  if ofs % lsz ≠ 0 ∨ cnt % lsz ≠ 0 then none else some (ofs / lsz, cnt / lsz)

/-- What `edgx_psfp_gt_init` takes from the probe; `max_gcl_len` is the number
of entries of a scheduler. -/
structure GateLimits where
  com : Sched.Com
  maxGateCnt : Nat

def GateLimits.maxGclLen (lim : GateLimits) : Nat := lim.com.maxEntryCnt

/-- Gate, entry and number of entries. -/
def edgxDev2psfpGclSched (lim : GateLimits) (ofs count : Nat) : Option (Nat × Nat × Nat) := do
  let (idx, nelems) ← edgxSysfsListParams ofs count entrySize
  if idx / lim.maxGclLen ≥ lim.maxGateCnt then none else some (idx / lim.maxGclLen, idx % lim.maxGclLen, nelems)

/-- A write of at least one entry. -/
def gtAdminCtrlListWrite (lim : GateLimits) (gates : Nat → EdgxSched) (ofs : Nat) (buf : List GtTabEntry)
    (allocOk : Bool) : Int × (Nat → EdgxSched) :=
  match edgxDev2psfpGclSched lim ofs (buf.length * entrySize) with
  | none => (-EINVAL, gates)
  | some (gate, first, _) =>
    let (ret, sched) := edgxSchedSetEntries Sched.streamGates lim.com (gates gate) first (edgxPsfpGtImportGcl buf) allocOk
    (if ret ≠ 0 then ret else (buf.length * entrySize : Nat), Function.update gates gate sched)

/-- A read into a buffer. It has no result when it leaves the list or the
buffer. -/
def gtAdminCtrlListRead (lim : GateLimits) (gates : Nat → EdgxSched) (ofs : Nat) (buf : List TabEntry) :
    Option (Except Int (List GtTabEntry)) :=
  match edgxDev2psfpGclSched lim ofs (buf.length * entrySize) with
  | none => some (.error (-EINVAL))
  | some (gate, first, _) => do
    let (ret, entries) ← edgxSchedGetEntries (gates gate).adminTab first buf
    some (if ret = 0 then .ok (edgxPsfpGtExportGcl entries) else .error ret)

/-- A list written in consecutive calls from the first entry of gate `g` on. -/
def writeChunks (lim : GateLimits) (gates : Nat → EdgxSched) (g : Nat) (bufs : List (List GtTabEntry)) : Nat → EdgxSched :=
  (chunks (g * lim.maxGclLen) bufs).foldl (fun gates p => (gtAdminCtrlListWrite lim gates (p.1 * entrySize) p.2 true).2) gates

/-- The list as consecutive calls read it, when all of them succeed. -/
def ReadsChunks (lim : GateLimits) (gates : Nat → EdgxSched) (g : Nat) (bufs : List (List TabEntry))
    (es : List GtTabEntry) : Prop :=
  ∃ rs : List (List GtTabEntry), (chunks (g * lim.maxGclLen) bufs).mapM
    (fun p => gtAdminCtrlListRead lim gates (p.1 * entrySize) p.2) = some (rs.map .ok) ∧ rs.flatten = es

/-- The list comes back and the lists of the other gates stay. The address of
an entry is its own, and a write over the end of a list is rejected. -/
structure GclRoundTrip (lim : GateLimits) (gates : Nat → EdgxSched) (g : Nat) (wbufs : List (List GtTabEntry))
    (rbufs : List (List TabEntry)) : Prop where
  same : ReadsChunks lim (writeChunks lim gates g wbufs) g rbufs wbufs.flatten
  others : ∀ k ≠ g, writeChunks lim gates g wbufs k = gates k
  address : ∀ ofs ofs' count count' a, (edgxDev2psfpGclSched lim ofs count).map (fun r => (r.1, r.2.1)) = some a →
    (edgxDev2psfpGclSched lim ofs' count').map (fun r => (r.1, r.2.1)) = some a → ofs = ofs'
  crossing : ∀ i buf allocOk, lim.maxGclLen < i % lim.maxGclLen + buf.length →
    let r := gtAdminCtrlListWrite lim gates (i * entrySize) buf allocOk
    r.1 < 0 ∧ r.2 = gates

/-! ## Addresses -/

section Address

variable {lim : GateLimits}

theorem listParams_aligned (i n : Nat) : edgxSysfsListParams (i * entrySize) (n * entrySize) entrySize = some (i, n) := by
  simp [edgxSysfsListParams, entrySize]

theorem gclSched_entry {g k : Nat} (hg : g < lim.maxGateCnt) (hk : k < lim.maxGclLen) (n : Nat) :
    edgxDev2psfpGclSched lim ((g * lim.maxGclLen + k) * entrySize) (n * entrySize) = some (g, k, n) := by
  have hdiv : (g * lim.maxGclLen + k) / lim.maxGclLen = g := by
    rw [Nat.add_comm, Nat.add_mul_div_right _ _ (by omega), Nat.div_eq_of_lt hk, Nat.zero_add]
  have hmod : (g * lim.maxGclLen + k) % lim.maxGclLen = k := by
    rw [Nat.add_comm, Nat.add_mul_mod_self_right, Nat.mod_eq_of_lt hk]
  simp [edgxDev2psfpGclSched, listParams_aligned, hdiv, hmod, hg]

/-- What is known of an offset that is accepted. -/
theorem gclSched_some {ofs count : Nat} {r : Nat × Nat × Nat} (h : edgxDev2psfpGclSched lim ofs count = some r) :
    ofs = (lim.maxGclLen * r.1 + r.2.1) * entrySize ∧ r.2.1 = ofs / entrySize % lim.maxGclLen := by
  unfold edgxDev2psfpGclSched edgxSysfsListParams at h
  by_cases hal : ofs % entrySize ≠ 0 ∨ count % entrySize ≠ 0
  · simp [hal] at h
  · rw [if_neg hal, Option.bind_eq_bind, Option.bind_some] at h
    dsimp only at h
    split at h
    · cases h
    · obtain rfl := Option.some.inj h
      dsimp only
      rw [Nat.div_add_mod]
      simp only [entrySize] at hal ⊢
      exact ⟨by omega, trivial⟩

/-- Entries at different offsets are different. -/
theorem gclSched_injective {ofs ofs' count count' : Nat} {a : Nat × Nat}
    (h : (edgxDev2psfpGclSched lim ofs count).map (fun r => (r.1, r.2.1)) = some a)
    (h' : (edgxDev2psfpGclSched lim ofs' count').map (fun r => (r.1, r.2.1)) = some a) : ofs = ofs' := by
  obtain ⟨r, hr, rfl⟩ := Option.map_eq_some_iff.1 h
  obtain ⟨r', hr', heq⟩ := Option.map_eq_some_iff.1 h'
  obtain ⟨hgate, hfirst⟩ := Prod.mk.injEq .. ▸ heq
  rw [(gclSched_some hr).1, (gclSched_some hr').1, hgate, hfirst]

/-- A write over the end of a list changes nothing. -/
theorem write_crossing (gates : Nat → EdgxSched) {i : Nat} {buf : List GtTabEntry}
    (h : lim.maxGclLen < i % lim.maxGclLen + buf.length) (allocOk : Bool) :
    let r := gtAdminCtrlListWrite lim gates (i * entrySize) buf allocOk
    r.1 < 0 ∧ r.2 = gates := by
  unfold gtAdminCtrlListWrite
  cases hs : edgxDev2psfpGclSched lim (i * entrySize) (buf.length * entrySize) with
  | none => exact ⟨(by decide : -EINVAL < 0), rfl⟩
  | some r =>
    obtain ⟨gate, first, n⟩ := r
    have hfirst : first = i % lim.maxGclLen := by
      have := (gclSched_some hs).2
      rwa [Nat.mul_div_cancel i (by decide)] at this
    have hbig : first + (edgxPsfpGtImportGcl buf).length > lim.com.maxEntryCnt := by
      rw [hfirst, edgxPsfpGtImportGcl, List.length_map]
      exact h
    dsimp only
    rw [edgxSchedSetEntries, if_pos hbig]
    dsimp only
    rw [if_pos (by decide)]
    exact ⟨by decide, Function.update_eq_self gate gates⟩

end Address

/-! ## Writing -/

/-- The table holds just these entries. -/
def Holds (tab : SchedTable) (l : List TabEntry) : Prop := tab.entries.getD [] = l ∧ tab.entryCnt = l.length

section Write

variable {lim : GateLimits} {gates : Nat → EdgxSched} {g : Nat}

/-- A write that goes on where the list ends. -/
theorem write_holds (hg : g < lim.maxGateCnt) {l : List TabEntry} (hl : l = [] ∨ Holds (gates g).adminTab l)
    {buf : List GtTabEntry} (hne : buf ≠ []) (hfit : l.length + buf.length ≤ lim.maxGclLen) :
    let gates' := (gtAdminCtrlListWrite lim gates ((g * lim.maxGclLen + l.length) * entrySize) buf true).2
    Holds (gates' g).adminTab (l ++ edgxPsfpGtImportGcl buf) ∧ ∀ k ≠ g, gates' k = gates k := by
  have hpos : 0 < buf.length := List.length_pos_iff.2 hne
  intro gates'
  have hgates : gates' = Function.update gates g
      (edgxSchedSetEntries Sched.streamGates lim.com (gates g) l.length (edgxPsfpGtImportGcl buf) true).2 := by
    simp only [gates', gtAdminCtrlListWrite, gclSched_entry hg (show l.length < lim.maxGclLen by omega)]
  have hlen : (edgxPsfpGtImportGcl buf).length = buf.length := List.length_map _
  have hkept : (gates g).adminTab.kept l.length = l := by
    rcases hl with rfl | hl
    · rfl
    · unfold SchedTable.kept
      split
      · exact (List.length_eq_zero_iff.1 ‹_›).symm
      · exact hl.1
  rw [hgates]
  refine ⟨?_, fun k hk => Function.update_of_ne hk _ _⟩
  rw [Function.update_self]
  rcases Sched.setEntries_cases Sched.streamGates lim.com (gates g) l.length (edgxPsfpGtImportGcl buf) true with
    ⟨hno, _⟩ | ⟨_, hfalse, _⟩ | ⟨_, _, _, e, heq⟩
  · refine absurd ⟨by rw [hlen]; exact hfit, ?_⟩ hno
    rcases hl with rfl | hl
    · exact .inl rfl
    · exact .inr hl.2.symm
  · cases hfalse
  · rw [heq]
    have hstore : (storeList Sched.streamGates lim.com (gates g) l.length (edgxPsfpGtImportGcl buf)).2 =
        l ++ edgxPsfpGtImportGcl buf := by
      simp [storeList, hkept, Sched.streamGates, Sched.shared]
    exact ⟨hstore, (List.length_append ..).symm⟩

/-- Writes in consecutive calls append what they write. -/
theorem writes_hold (hg : g < lim.maxGateCnt) {bufs : List (List GtTabEntry)} {l : List TabEntry}
    (hl : l = [] ∨ Holds (gates g).adminTab l) (hne : ∀ b ∈ bufs, b ≠ [])
    (hfit : l.length + bufs.flatten.length ≤ lim.maxGclLen) :
    let gates' := (chunks (g * lim.maxGclLen + l.length) bufs).foldl
      (fun gates p => (gtAdminCtrlListWrite lim gates (p.1 * entrySize) p.2 true).2) gates
    (bufs = [] ∨ Holds (gates' g).adminTab (l ++ edgxPsfpGtImportGcl bufs.flatten)) ∧ ∀ k ≠ g, gates' k = gates k := by
  induction bufs generalizing l gates with
  | nil => exact ⟨.inl rfl, fun k _ => rfl⟩
  | cons b bs ih =>
    obtain ⟨hb, hbs⟩ := List.forall_mem_cons.1 hne
    rw [List.flatten_cons, List.length_append] at hfit
    obtain ⟨hholds, hother⟩ := write_holds hg hl hb (by omega)
    have hlen : (l ++ edgxPsfpGtImportGcl b).length = l.length + b.length := by
      simp [edgxPsfpGtImportGcl]
    obtain ⟨hrest, hothers⟩ := ih (.inr hholds) hbs (by omega)
    rw [hlen, ← Nat.add_assoc] at hrest hothers
    refine ⟨.inr ?_, fun k hk => (hothers k hk).trans (hother k hk)⟩
    rcases hrest with rfl | hrest
    · simpa [chunks] using hholds
    · simpa [chunks, edgxPsfpGtImportGcl] using hrest

end Write

/-! ## Reading -/

section Read

variable {lim : GateLimits} {gates : Nat → EdgxSched} {g : Nat} {l : List TabEntry}

theorem Holds.sized {com : Sched.Com} {tab : SchedTable} (h : Holds tab l) (hmax : l.length ≤ com.maxEntryCnt) :
    tab.Sized com := ⟨by rw [h.1, h.2], by rw [h.2]; exact hmax⟩

/-- The admin list is a window of the table. -/
theorem Holds.window {com : Sched.Com} {tab : SchedTable} (h : Holds tab l) (hmax : l.length ≤ com.maxEntryCnt) :
    window tab.adminEntry 0 l.length = l := by
  refine (eq_window_iff.2 ⟨rfl, fun i hi => ?_⟩).symm
  rw [Nat.zero_add, ← Sched.entry?_of_lt (h.sized hmax) (by rw [h.2]; exact hi), SchedTable.entry?, h.1, h.2, if_pos hi]

theorem read_first (hg : g < lim.maxGateCnt) (h : Holds (gates g).adminTab l) (hmax : l.length ≤ lim.maxGclLen)
    {buf : List TabEntry} (hlen : buf.length = l.length) (hne : buf ≠ []) :
    gtAdminCtrlListRead lim gates (g * lim.maxGclLen * entrySize) buf = some (.ok (edgxPsfpGtExportGcl l)) := by
  have hpos : 0 < buf.length := List.length_pos_iff.2 hne
  have hsched := gclSched_entry hg (show 0 < lim.maxGclLen by omega) buf.length
  rw [Nat.add_zero] at hsched
  have hget := Sched.getEntries_zero (h.sized hmax) buf (by rw [h.2]; omega)
  rw [hlen, h.window hmax] at hget
  simp [gtAdminCtrlListRead, hsched, hget]

/-- A read that starts behind the first entry. -/
theorem read_later (hg : g < lim.maxGateCnt) (h : Holds (gates g).adminTab l) (hmax : l.length ≤ lim.maxGclLen)
    {k : Nat} (hk : k ≠ 0) (hkl : k < l.length) (buf : List TabEntry) :
    gtAdminCtrlListRead lim gates ((g * lim.maxGclLen + k) * entrySize) buf = none := by
  have hnone := Sched.getEntries_none (h.sized hmax) buf (by rw [h.2]; omega) hk
  simp [gtAdminCtrlListRead, gclSched_entry hg (show k < lim.maxGclLen by omega), hnone]

theorem export_import_list {es : List GtTabEntry} (hv : ∀ e ∈ es, e.IpvValid) :
    edgxPsfpGtExportGcl (edgxPsfpGtImportGcl es) = es ↔ ∀ e ∈ es, e.gateState.toNat ≤ 1 := by
  induction es with
  | nil => simp [edgxPsfpGtExportGcl, edgxPsfpGtImportGcl]
  | cons e es ih =>
    obtain ⟨he, hes⟩ := List.forall_mem_cons.1 hv
    simp only [edgxPsfpGtExportGcl, edgxPsfpGtImportGcl, List.map_cons, List.cons.injEq, List.forall_mem_cons] at ih ⊢
    rw [export_import_iff he, ih hes]

/-- The list is read back by one call. -/
theorem readsChunks_iff (hg : g < lim.maxGateCnt) {es : List GtTabEntry} (hv : ∀ e ∈ es, e.IpvValid)
    {bufs : List (List TabEntry)} (hne : ∀ b ∈ bufs, b ≠ []) (hlen : bufs.flatten.length = es.length)
    (h : es = [] ∨ Holds (gates g).adminTab (edgxPsfpGtImportGcl es)) (hmax : es.length ≤ lim.maxGclLen) :
    ReadsChunks lim gates g bufs es ↔ bufs.length ≤ 1 ∧ ∀ e ∈ es, e.gateState.toNat ≤ 1 := by
  have himp : (edgxPsfpGtImportGcl es).length = es.length := List.length_map _
  unfold ReadsChunks
  rcases bufs with - | ⟨b, - | ⟨c, bs⟩⟩
  · obtain rfl := List.length_eq_zero_iff.1 hlen.symm
    exact iff_of_true ⟨[], rfl, rfl⟩ (by simp)
  · have hb : b ≠ [] := hne b List.mem_cons_self
    rw [List.flatten_singleton] at hlen
    have hpos : 0 < b.length := List.length_pos_iff.2 hb
    have hholds := h.resolve_left (List.length_pos_iff.1 (by omega))
    have hread := read_first hg hholds (by omega) (by omega : b.length = _) hb
    simp only [chunks, List.mapM_cons, List.mapM_nil, hread, Option.pure_def, Option.bind_eq_bind, Option.bind_some,
      Option.some.injEq, List.length_singleton, le_refl, true_and, ← export_import_list hv]
    constructor
    · rintro ⟨rs, hrs, rfl⟩
      obtain ⟨r, rfl, hr⟩ := List.map_eq_singleton_iff.1 hrs.symm
      simpa using hr.symm
    · intro heq
      exact ⟨[es], by rw [heq]; rfl, List.flatten_singleton⟩
  · -- the second call starts behind the first entry
    have hb : 0 < b.length := List.length_pos_iff.2 (hne b (by simp))
    have hc : 0 < c.length := List.length_pos_iff.2 (hne c (by simp))
    simp only [List.flatten_cons, List.length_append] at hlen
    have hholds := h.resolve_left (List.length_pos_iff.1 (by omega))
    have hlater := read_later hg hholds (by omega) (k := b.length) (by omega) (by omega) c
    refine iff_of_false ?_ fun hone => absurd hone.1 (by simp)
    rintro ⟨rs, hrs, -⟩
    simp only [chunks, List.mapM_cons, hlater, Option.bind_eq_bind, Option.bind_none, Option.bind_fun_none] at hrs
    cases hrs

end Read

theorem written_reads_iff {lim : GateLimits} (gates : Nat → EdgxSched) {g : Nat} (hg : g < lim.maxGateCnt)
    {wbufs : List (List GtTabEntry)} {rbufs : List (List TabEntry)} (hw : ∀ b ∈ wbufs, b ≠ []) (hr : ∀ b ∈ rbufs, b ≠ [])
    (hlen : rbufs.flatten.length = wbufs.flatten.length) (hmax : wbufs.flatten.length ≤ lim.maxGclLen)
    (hv : ∀ e ∈ wbufs.flatten, e.IpvValid) :
    ReadsChunks lim (writeChunks lim gates g wbufs) g rbufs wbufs.flatten ↔
      rbufs.length ≤ 1 ∧ ∀ e ∈ wbufs.flatten, e.gateState.toNat ≤ 1 := by
  have hholds : wbufs = [] ∨ Holds (writeChunks lim gates g wbufs g).adminTab (edgxPsfpGtImportGcl wbufs.flatten) :=
    (writes_hold hg (.inl rfl) hw (by simpa using hmax)).1
  refine readsChunks_iff hg hv hr hlen (hholds.imp (fun h => ?_) id) hmax
  rw [h, List.flatten_nil]

/-- **A gate control list written in any chunks is read back** when it is read
in one call, and each gate state is open or closed. -/
theorem gclRoundTrip_iff (lim : GateLimits) (gates : Nat → EdgxSched) {g : Nat} (hg : g < lim.maxGateCnt)
    {wbufs : List (List GtTabEntry)} {rbufs : List (List TabEntry)} (hw : ∀ b ∈ wbufs, b ≠ []) (hr : ∀ b ∈ rbufs, b ≠ [])
    (hlen : rbufs.flatten.length = wbufs.flatten.length) (hmax : wbufs.flatten.length ≤ lim.maxGclLen)
    (hv : ∀ e ∈ wbufs.flatten, e.IpvValid) :
    GclRoundTrip lim gates g wbufs rbufs ↔ rbufs.length ≤ 1 ∧ ∀ e ∈ wbufs.flatten, e.gateState.toNat ≤ 1 := by
  rw [← written_reads_iff gates hg hw hr hlen hmax hv]
  refine ⟨GclRoundTrip.same, fun hsame => ⟨hsame, ?_, ?_, ?_⟩⟩
  · exact (writes_hold hg (.inl rfl) hw (by simpa using hmax)).2
  · exact fun ofs ofs' count count' a h h' => gclSched_injective h h'
  · exact fun i buf allocOk h => write_crossing gates h allocOk

/-- Two gates with lists of up to 1023 entries. -/
def twoGates : GateLimits := ⟨Sched.someCom, 2⟩

/-- Open with priority 5, then closed. -/
def openClosed : List (List GtTabEntry) := [[⟨320, 0, 1, 5⟩], [⟨640, 0, 0, PSFP_GT_IPV_NULL⟩]]

theorem gclRoundTrip_iff_openClosed :
    GclRoundTrip twoGates (fun _ => Sched.init 1) 1 openClosed [[Sched.edgxSchedUndefEntry, Sched.edgxSchedUndefEntry]] :=
  (gclRoundTrip_iff twoGates _ (by decide) (by decide) (by decide) (by decide) (by decide) (by unfold GtTabEntry.IpvValid; decide)).2
    (by decide)

/-- The second entry, read by a call of its own. -/
theorem not_gclRoundTrip_second :
    gtAdminCtrlListRead twoGates (writeChunks twoGates (fun _ => Sched.init 1) 1 openClosed) (1024 * entrySize)
      [Sched.edgxSchedUndefEntry] = none ∧
    ¬ GclRoundTrip twoGates (fun _ => Sched.init 1) 1 openClosed [[Sched.edgxSchedUndefEntry], [Sched.edgxSchedUndefEntry]] := by
  refine ⟨rfl, fun h => ?_⟩
  have hread := (written_reads_iff (fun _ => Sched.init 1) (by decide) (by decide) (by decide) (by decide) (by decide)
    (by unfold GtTabEntry.IpvValid; decide)).1 h.same
  exact absurd hread.1 (by decide)

end TsnSwitch.Psfp
