/-
The calls of the FRER driver, in any order, and what each group of them
leaves alone. All of them write to the same table, but each word of a row
belongs to one group, and so does each part of the driver's state (`GenFrame`,
`EncFrame`, `RecFrame`).
-/
import TsnSwitch.Lib.Run
import TsnSwitch.Frer.SeqEnc
import TsnSwitch.Frer.SeqGen
import TsnSwitch.Frer.SeqRec

namespace TsnSwitch.Frer

open Lib

/-- Sequence generation. -/
inductive GenOp where
  | create (fnidx : BitVec 16) (alloc : Bool)
  | addStr (str fnidx : BitVec 16) (alloc : Bool)
  | addDir (dir : BitVec 8) (fnidx : BitVec 16)
  | delStr (str : BitVec 16)
  | delFn (fnidx : BitVec 16) (freed : BitVec 16 → BitVec 16)

/-- Sequence encoding. -/
inductive EncOp where
  | create (port : Port) (dir : BitVec 8)
  | addStr (str : BitVec 16) (port : Port) (allocList allocNode : Bool)
  | setActive (active : BitVec 8) (port : Port)
  | delStr (str : BitVec 16) (port : Port)
  | delPortFn (port : Port) (freed : BitVec 16 → BitVec 16)

/-- The parameters of a recovery function, but for its list. -/
inductive RecParam where
  | addPort (ptid : Port)
  | addDir (dir : BitVec 8)
  | takeNoSeq (val : BitVec 8)
  | indRecv (val : BitVec 8)
  | latentErr (val : BitVec 8)
  | alg (val : BitVec 8)
  | rstTimeout (rrst : BitVec 16)
  | histLen (hl : BitVec 8)

/-- Sequence recovery. -/
inductive RecOp where
  | create (fnidx : BitVec 16) (alloc : Bool)
  | param (p : RecParam) (fnidx : BitVec 16)
  | delPort (ptid : Port) (fnidx : BitVec 16)
  | addStr (str fnidx : BitVec 16) (alloc : Bool)
  | delStr (str fnidx : BitVec 16)
  | delFn (fnidx : BitVec 16)

inductive Op where
  | sg (op : GenOp)
  | se (op : EncOp)
  | sr (op : RecOp)

section Step

variable (par : Params) (f : EdgxFrer)

def genStep : GenOp → Int × EdgxFrer
  | .create fnidx alloc => edgxFrerSeqgenCreate par f fnidx alloc
  | .addStr str fnidx alloc => edgxFrerSeqgenAddstr par f str fnidx alloc
  | .addDir dir fnidx => edgxFrerSeqgenAdddir f dir fnidx
  | .delStr str => seqgenListDelEntry f str
  | .delFn fnidx freed => seqgenRbtDelEntry f fnidx freed

def encStep : EncOp → Int × EdgxFrer
  | .create port dir => edgxFrerSeqencCreateEntry par port dir f
  | .addStr str port allocList allocNode => edgxFrerSeqencAddStr par str port f allocList allocNode
  | .setActive active port => edgxFrerSeqencSetActive active port f
  | .delStr str port => edgxFrerSeqencDelstr str port f
  | .delPortFn port freed => edgxFrerSeqencDelportfn port f freed

def recParamStep (fnidx : BitVec 16) : RecParam → Int × EdgxFrer
  | .addPort ptid => edgxFrerSeqrecAddport par ptid fnidx f
  | .addDir dir => edgxFrerSeqrecAdddir par f dir fnidx
  | .takeNoSeq val => edgxFrerSeqrecSetRbtBool par f val fnidx .noSeq
  | .indRecv val => edgxFrerSeqrecSetRbtBool par f val fnidx .indRec
  | .latentErr val => seqrecLatentErrWrite par f val fnidx
  | .alg val => edgxFrerSeqrecSetAlg par f val fnidx
  | .rstTimeout rrst => edgxFrerSeqrecSetRrst par f rrst fnidx
  | .histLen hl => edgxFrerSeqrecSetHistl par f hl fnidx

def recStep : RecOp → Int × EdgxFrer
  | .create fnidx alloc => edgxFrerSeqrecCreate par f fnidx alloc
  | .param p fnidx => recParamStep par f fnidx p
  | .delPort ptid fnidx => edgxFrerSeqrecDelport par ptid fnidx f
  | .addStr str fnidx alloc => edgxFrerSeqrecAddstr par f str fnidx alloc
  | .delStr str fnidx => edgxFrerSeqrecDelstr par f str fnidx
  | .delFn fnidx => edgxFrerSeqrecDelfn par fnidx f

def step : Op → Int × EdgxFrer
  | .sg op => genStep par f op
  | .se op => encStep par f op
  | .sr op => recStep par f op

end Step

/-- The function with a parameter set, if the value is accepted. -/
def RecParam.set (par : Params) (sr : SeqRec) : RecParam → Option SeqRec
  | .addPort ptid => if edgxFrerCheckPort par ptid = 0 then some { sr with ptmask := sr.ptmask ||| bit ptid } else none
  | .addDir dir => if seqrecCheckDir dir = 0 then some { sr with dir := .inFac } else none
  | .takeNoSeq val => if seqrecCheckBool val = 0 then some { sr with takeNoSeq := val } else none
  | .indRecv val =>
    if seqrecCheckBool val = 0 ∧ (val = 0 ∨ sr.latErr = 0) then some { sr with indRec := val } else none
  | .latentErr val => if val = 0 then some { sr with latErr := val } else none
  | .alg val =>
    if seqrecCheckAlg val = 0 then some { sr with alg := if val = 0 then .vect else .match } else none
  | .rstTimeout rrst => if seqrecCheckRcvRst par rrst = 0 then some { sr with rcvRst := rrst } else none
  | .histLen hl => if seqrecCheckHistl hl = 0 then some { sr with histLen := hl } else none

theorem RecParam.set_keeps {par : Params} {sr sr' : SeqRec} {p : RecParam} (h : p.set par sr = some sr') :
    sr'.srList = sr.srList ∧ sr'.seqrecCfgApplied = sr.seqrecCfgApplied := by
  cases p <;> simp only [RecParam.set, Option.ite_none_right_eq_some, Option.some.injEq] at h <;>
    obtain ⟨_, rfl⟩ := h <;> exact ⟨rfl, rfl⟩

/-- **The parameters are one family**: an accepted value is set and the
function applied, without a stream. -/
theorem recParamStep_cases (par : Params) (f : EdgxFrer) (fnidx : BitVec 16) (p : RecParam) :
    let r := recParamStep par f fnidx p
    r.1 ≠ 0 ∧ r.2 = f ∨ ∃ sr sr', f.srRoot fnidx = some sr ∧ p.set par sr = some sr' ∧
      r = (0, edgxFrerSeqrecApply par f fnidx sr' FRER_U16_INVALID false) := by
  intro r
  have hset : ∀ g : SeqRec → SeqRec, r = f.setParam par fnidx g → (∀ sr, f.srRoot fnidx = some sr → p.set par sr = some (g sr)) →
      r.1 ≠ 0 ∧ r.2 = f ∨ ∃ sr sr', f.srRoot fnidx = some sr ∧ p.set par sr = some sr' ∧
        r = (0, edgxFrerSeqrecApply par f fnidx sr' FRER_U16_INVALID false) := by
    intro g hr hp
    rcases setParam_cases par f fnidx g with h | ⟨sr, hsr, h⟩
    · exact .inl (by rw [hr]; exact h)
    · exact .inr ⟨sr, g sr, hsr, hp sr hsr, hr.trans h⟩
  have hr : r = recParamStep par f fnidx p := rfl
  cases p with
  | addPort ptid =>
    simp only [recParamStep, edgxFrerSeqrecAddport] at hr
    split at hr
    · exact .inl (refused (by decide) hr)
    · rename_i hchk
      exact hset _ hr fun sr _ => if_pos (not_not.1 hchk)
  | addDir dir =>
    simp only [recParamStep, edgxFrerSeqrecAdddir] at hr
    split at hr
    · exact .inl (refused (by decide) hr)
    · rename_i hchk
      exact hset _ hr fun sr _ => if_pos (not_not.1 hchk)
  | alg val =>
    simp only [recParamStep, edgxFrerSeqrecSetAlg] at hr
    split at hr
    · exact .inl (refused (by decide) hr)
    · rename_i hchk
      exact hset _ hr fun sr _ => if_pos (not_not.1 hchk)
  | rstTimeout rrst =>
    simp only [recParamStep, edgxFrerSeqrecSetRrst] at hr
    split at hr
    · exact .inl (refused (by decide) hr)
    · rename_i hchk
      exact hset _ hr fun sr _ => if_pos (not_not.1 hchk)
  | histLen hl =>
    simp only [recParamStep, edgxFrerSeqrecSetHistl] at hr
    split at hr
    · exact .inl (refused (by decide) hr)
    · rename_i hchk
      exact hset _ hr fun sr _ => if_pos (not_not.1 hchk)
  | takeNoSeq val =>
    simp only [recParamStep, edgxFrerSeqrecSetRbtBool] at hr
    split at hr
    · exact .inl (refused (by decide) hr)
    · rename_i hchk
      split at hr
      · exact .inl (refused (by decide) hr)
      · exact hset _ hr fun sr _ => if_pos (not_not.1 hchk)
  | indRecv val =>
    simp only [recParamStep, edgxFrerSeqrecSetRbtBool] at hr
    split at hr
    · exact .inl (refused (by decide) hr)
    · rename_i hchk
      split at hr
      · exact .inl (refused (by decide) hr)
      · rename_i sr hsr
        split at hr
        · rename_i hval
          refine hset _ hr fun sr' hsr' => ?_
          obtain rfl : sr = sr' := Option.some.inj (hsr.symm.trans hsr')
          exact if_pos ⟨not_not.1 hchk, hval⟩
        · exact .inl (refused (by decide) hr)
  | latentErr val =>
    simp only [recParamStep, seqrecLatentErrWrite] at hr
    split at hr
    · exact .inl (refused (by decide) hr)
    · rename_i hval
      have hzero : val = 0 := not_not.1 hval
      simp only [edgxFrerSeqrecSetRbtBool] at hr
      split at hr
      · exact .inl (refused (by decide) hr)
      · split at hr
        · exact .inl (refused (by decide) hr)
        · rw [if_pos (.inl hzero)] at hr
          exact hset _ hr fun sr _ => if_pos hzero

/-! ## Words that are left alone -/

/-- The words `t` of the rows are as they were. -/
def KeepsWord (t : Tbl) (h h' : StreamTbl) : Prop := ∀ s, InTable s → h'.rows s t = h.rows s t

namespace KeepsWord

variable {t : Tbl} {h h' h'' : StreamTbl}

theorem refl (h : StreamTbl) : KeepsWord t h h := fun _ _ => rfl

theorem of_rows (he : h'.rows = h.rows) : KeepsWord t h h' := fun _ _ => by rw [he]

theorem trans (k : KeepsWord t h h') (k' : KeepsWord t h' h'') : KeepsWord t h h'' := fun s hs =>
  (k' s hs).trans (k s hs)

theorem wr {s : BitVec 16} (hs : InTable s) (val : BitVec 16) {tbl : Tbl} (del : Bool) (ht : t ≠ tbl) :
    KeepsWord t h (edgxFrerIpWrStrtbl h s val tbl del) := by
  intro x _
  rw [hs.wr, StreamTbl.setWord_rows, if_neg fun h => ht h.2]

theorem foldl {α : Type} {g : StreamTbl → α → StreamTbl} {as : List α}
    (hg : ∀ h a, a ∈ as → KeepsWord t h (g h a)) (h : StreamTbl) : KeepsWord t h (as.foldl g h) := by
  induction as generalizing h with
  | nil => exact refl h
  | cons a as ih =>
    exact (hg h a List.mem_cons_self).trans (ih (fun h b hb => hg h b (List.mem_cons_of_mem a hb)) _)

end KeepsWord

/-! ## Handles in the commands -/

/-- The commands of the call have the handles that are meant: a handle to
delete has bit 14 clear, and freed entries still hold theirs. -/
def Addressed (f : EdgxFrer) : Op → Prop
  | .sg (.delStr str) => str.getLsbD 14 = false
  | .sg (.delFn fnidx freed) => ∀ n ∈ f.sgRoot fnidx, ∀ s ∈ n.sgList, freed s = s
  | _ => True

instance (f : EdgxFrer) : ∀ op, Decidable (Addressed f op)
  | .sg (.delStr _) => inferInstanceAs (Decidable (_ = _))
  | .sg (.delFn fnidx freed) => inferInstanceAs (Decidable (∀ n ∈ f.sgRoot fnidx, ∀ s ∈ n.sgList, freed s = s))
  | .sg (.create ..) | .sg (.addStr ..) | .sg (.addDir ..) | .se _ | .sr _ => isTrue trivial

end TsnSwitch.Frer
