/-
Reading the parameters of an entry back: `sid_ident_params_read` of
edge_br_sid2.c.

An entry is read from its class, so it comes back as it was written where it
never joined the class of another VID. The key of a class leaves out bits 14
and 15 of the VID, and the VIDs of tagged frames are not checked: these are the
parameters that share a class though they differ (`key_eq_iff_cls`).
-/
import TsnSwitch.SidTab.Writes

namespace TsnSwitch.SidTab

open Fdb (Mac)
open Lib

/-- The parameters and the stream handle. The entry points to its class and to
its part there. -/
def sidIdentParamsRead (s : EdgxSidBr) (ord : Nat) : Except Int (IdentParams × Handle) :=
  if ord > SID_MAX_ORD then .error (-EINVAL)
  else match (s.rbO ord).bind fun k => (s.rbTmvt k).bind fun t => (t.rbTmvtO.get? ord).map fun toe => (t, toe) with
  | none => .error (-ENOENT)
  | some (t, toe) => .ok (⟨t.addr, t.tag, t.vid, SID_NULL⟩, toe.strHdl)

/-! ## Parameters of one class -/

def IdentParams.cls (p : IdentParams) : Cls := ⟨p.addr, p.tag, p.vid⟩

def Cls.key (c : Cls) : TmvtKey := paramsToTmvtKey c.addr c.tag c.vid

/-- Classes that differ in bits 14 and 15 of the VID only. -/
structure Cls.Aliased (c c' : Cls) : Prop where
  addr : c.addr = c'.addr
  tag : c.tag = c'.tag
  low : c.vid &&& 0x3FFF = c'.vid &&& 0x3FFF
  vid : c.vid ≠ c'.vid

/-- What `sid_ident_params_write` accepts of the parameters. -/
def Accepted (p : IdentParams) : Prop := tagVidOk p.tag p.vid = true ∧ p.idType = SID_NULL

theorem key_eq_iff {c c' : Cls} (h : tagVidOk c.tag c.vid = true) (h' : tagVidOk c'.tag c'.vid = true) :
    c.key = c'.key ↔ c.addr = c'.addr ∧ c.tag = c'.tag ∧ c.vid &&& 0x3FFF = c'.vid &&& 0x3FFF := by
  constructor
  · intro hkey
    obtain ⟨haddr, htag⟩ := key_inj h h' hkey
    refine ⟨haddr, htag, BitVec.eq_of_getLsbD_eq fun i _ => ?_⟩
    by_cases hi : i < 14
    · rw [← key_vid c.addr c.tag c.vid hi, ← key_vid c'.addr c'.tag c'.vid hi]
      exact congrArg (BitVec.getLsbD · i) hkey
    · have hhigh : ∀ v : BitVec 16, (v &&& 0x3FFF).getLsbD i = false := fun v =>
        getLsbD_of_toNat_lt (n := 14) (by rw [BitVec.toNat_and]; exact Nat.lt_succ_of_le Nat.and_le_right) (by omega)
      rw [hhigh, hhigh]
  · rintro ⟨haddr, htag, hlow⟩
    rw [Cls.key, Cls.key, paramsToTmvtKey, paramsToTmvtKey, haddr, htag, hlow]

/-- Parameters have a class for themselves just when no others are aliased. -/
theorem key_eq_iff_cls {c c' : Cls} (h : tagVidOk c.tag c.vid = true) (h' : tagVidOk c'.tag c'.vid = true) :
    (c.key = c'.key ↔ c = c') ↔ ¬ c.Aliased c' := by
  rw [key_eq_iff h h']
  constructor
  · intro hiff ha
    exact ha.vid (congrArg Cls.vid (hiff.1 ⟨ha.addr, ha.tag, ha.low⟩))
  · intro hna
    refine ⟨fun ⟨haddr, htag, hlow⟩ => ?_, fun heq => heq ▸ ⟨rfl, rfl, rfl⟩⟩
    by_contra hne
    refine hna ⟨haddr, htag, hlow, fun hvid => hne ?_⟩
    cases c
    cases c'
    simp_all

/-! ## Entries -/

section Read

variable {s : EdgxSidBr}

theorem sidIdentParamsRead_eq (s : EdgxSidBr) {ord : Nat} (h : ord ≤ SID_MAX_ORD) :
    sidIdentParamsRead s ord = match entriesOf s ord with
      | none => .error (-ENOENT)
      | some e => .ok (⟨e.cls.addr, e.cls.tag, e.cls.vid, SID_NULL⟩, e.strHdl) := by
  rw [sidIdentParamsRead, if_neg (Nat.not_lt.2 h), entriesOf]
  cases s.rbO ord with
  | none => rfl
  | some k =>
    simp only [Option.bind_some]
    cases s.rbTmvt k with
    | none => rfl
    | some t =>
      simp only [Option.bind_some]
      cases t.rbTmvtO.get? ord with
      | none => rfl
      | some toe => rfl

/-- Entries of one class in the trees have one class of parameters. -/
theorem Core.same_class (hC : Core s) {o o' : Nat} {e e' : SidEntry} (h : entriesOf s o = some e)
    (h' : entriesOf s o' = some e') : s.rbO o = s.rbO o' ↔ e.cls = e'.cls := by
  obtain ⟨k, ho, h⟩ := Option.bind_eq_some_iff.1 h
  obtain ⟨t, ht, h⟩ := Option.bind_eq_some_iff.1 h
  obtain ⟨toe, -, rfl⟩ := Option.map_eq_some_iff.1 h
  obtain ⟨k', ho', h'⟩ := Option.bind_eq_some_iff.1 h'
  obtain ⟨t', ht', h'⟩ := Option.bind_eq_some_iff.1 h'
  obtain ⟨toe', -, rfl⟩ := Option.map_eq_some_iff.1 h'
  rw [ho, ho', Option.some.injEq]
  constructor
  · rintro rfl
    obtain rfl := Option.some.inj (ht.symm.trans ht')
    rfl
  · intro hcls
    exact (class_unique hC ht' ht hcls).1

end Read

/-- A creation that is accepted is not aliased with an entry. -/
def Apart (s : EdgxSidBr) : Op → Prop
  | .identParams _ p _ => Accepted p → ∀ o e, entriesOf s o = some e → ¬ p.cls.Aliased e.cls
  | _ => True

theorem Apart.joinsOwn {s : EdgxSidBr} (hI : Inv s) {op : Op} (h : Apart s op) : JoinsOwn s op := by
  cases op with
  | identParams o p mem =>
    intro _ hok htype _ _ _ t ht
    obtain ⟨x, hx⟩ := List.exists_mem_of_ne_nil _ (hI.inUse _ t ht)
    have hcls := (inClass_iff hI.tidy.core ht).2 ⟨x.2, OrdMap.get?_eq_some.2 hx, rfl⟩
    have hcok := hI.tidy.core.classOk _ t ht
    have hkey : p.cls.key = t.cls.key := hcok.key.symm
    obtain ⟨haddr, htag, hlow⟩ := (key_eq_iff (show tagVidOk p.cls.tag p.cls.vid = true from hok) hcok.tagVid).1 hkey
    by_contra hvid
    exact h ⟨hok, htype⟩ x.1 _ hcls.1 ⟨haddr, htag, hlow, fun hv => hvid hv.symm⟩
  | delete | setStrhdl | portPos | portPosDel => exact True.intro

/-- Every entry is read as it was written, and entries share a class just when
their address, tag and VID are the same. -/
structure ReadsBack (s : EdgxSidBr) (a : Entries) : Prop where
  read : ∀ o ≤ SID_MAX_ORD, ∀ e, a o = some e →
    sidIdentParamsRead s o = .ok (⟨e.cls.addr, e.cls.tag, e.cls.vid, SID_NULL⟩, e.strHdl)
  absent : ∀ o ≤ SID_MAX_ORD, a o = none → sidIdentParamsRead s o = .error (-ENOENT)
  classes : ∀ o o' e e', a o = some e → a o' = some e' → (s.rbO o = s.rbO o' ↔ e.cls = e'.cls)

theorem Core.readsBack {s : EdgxSidBr} (hC : Core s) : ReadsBack s (entriesOf s) where
  read o ho e he := by rw [sidIdentParamsRead_eq s ho, he]
  absent o ho he := by rw [sidIdentParamsRead_eq s ho, he]
  classes _ _ _ _ he he' := hC.same_class he he'

/-- After such a run the entries in the trees are the recorded ones. -/
theorem after_recorded {cfg : Config} {ops : List Op} (h : Guarded step Apart (init cfg) ops) :
    Inv (after step (init cfg) ops) ∧
      entriesOf (after step (init cfg) ops) = (outs step (init cfg) ops).foldl record fun _ => none := by
  refine h.sim_after (R := fun s a => Inv s ∧ entriesOf s = a) ⟨init_inv cfg, rfl⟩ ?_
  rintro s _ op ⟨hI, rfl⟩ hap
  obtain ⟨hinv, hentries⟩ := step_recorded hI op (hap.joinsOwn hI)
  exact ⟨hinv, hentries⟩

/-- **Parameters have their own class, and are read back** after every run of
writes in which no created entry is aliased with another one. -/
theorem readsBack_of_apart (cfg : Config) (ops : List Op) :
    (∀ p q, Accepted p → Accepted q → ((p.cls.key = q.cls.key ↔ p.cls = q.cls) ↔ ¬ p.cls.Aliased q.cls)) ∧
    (Guarded step Apart (init cfg) ops →
      ReadsBack (after step (init cfg) ops) ((outs step (init cfg) ops).foldl record fun _ => none)) := by
  refine ⟨fun p q hp hq => ?_, fun h => ?_⟩
  · exact key_eq_iff_cls (show tagVidOk p.cls.tag p.cls.vid = true from hp.1) hq.1
  obtain ⟨hinv, hentries⟩ := after_recorded h
  rw [← hentries]
  exact hinv.tidy.core.readsBack

/-- A creation changes nothing but its own entry. -/
theorem entriesOf_identParams {s : EdgxSidBr} (hI : Inv s) {o : Nat} {p : IdentParams} {mem : Mem}
    (h : JoinsOwn s (.identParams o p mem)) {o' : Nat} {e : SidEntry}
    (he : entriesOf (step s (.identParams o p mem)).2 o' = some e) : entriesOf s o' = some e ∨ e.cls = p.cls := by
  rw [(step_recorded hI _ h).entries, record] at he
  split at he
  · rw [applied, Function.update_apply] at he
    split at he
    · exact .inr (Option.some.inj he ▸ rfl)
    · exact .inl he
  · exact .inl he

/-- Two VIDs of one address, and a handle. -/
def apartOps : List Op :=
  [.identParams 0 ⟨macA, SID_TAGGED, 1, SID_NULL⟩ ⟨true, true, true, true, true⟩,
    .identParams 1 ⟨macA, SID_TAGGED, 0x4002, SID_NULL⟩ ⟨true, true, true, true, true⟩, .setStrhdl 1 5]

theorem apartOps_apart : Guarded step Apart (init cfgA) apartOps := by
  have hnone : ∀ o e, entriesOf (init cfgA) o ≠ some e := fun o e => by
    rw [entriesOf_none rfl]
    simp
  refine ⟨fun _ o e he => absurd he (hnone o e), fun _ o e he => ?_, True.intro, True.intro⟩
  rcases entriesOf_identParams (init_inv cfgA) (joinsOwn_of_free rfl) he with he | hcls
  · exact absurd he (hnone o e)
  · intro ha
    have hlow := ha.low
    rw [hcls] at hlow
    exact absurd hlow (by decide)

theorem readsBack_of_apart_two :
    ReadsBack (after step (init cfgA) apartOps) ((outs step (init cfgA) apartOps).foldl record fun _ => none) :=
  (readsBack_of_apart cfgA apartOps).2 apartOps_apart

/-- VID 0x4001 joins the class of VID 1, and is read as VID 1. -/
theorem not_readsBack_joined :
    (⟨macA, SID_TAGGED, 1⟩ : Cls).key = (⟨macA, SID_TAGGED, 0x4001⟩ : Cls).key ∧
    ((sidIdentParamsRead (after step (init cfgA) joinOps) 1).toOption.map fun r => r.1.vid) = some 1 ∧
    ¬ ReadsBack (after step (init cfgA) joinOps) ((outs step (init cfgA) joinOps).foldl record fun _ => none) := by
  have hread : ((sidIdentParamsRead (after step (init cfgA) joinOps) 1).toOption.map fun r => r.1.vid) = some 1 := by
    decide +kernel
  refine ⟨by decide, hread, fun h => ?_⟩
  rw [foldl_record_of_zero (by decide +kernel)] at h
  have hentry : joinOps.foldl applied (fun _ => none) 1 = some ⟨⟨macA, SID_TAGGED, 0x4001⟩, 5, portBit 3⟩ := rfl
  rw [h.read 1 (by decide) _ hentry] at hread
  exact absurd hread (by decide)

end TsnSwitch.SidTab
