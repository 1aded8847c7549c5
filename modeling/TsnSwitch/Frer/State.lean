/-
The state of the FRER driver (edge_frer.c): sequence generation functions,
the encoding entry of each port, and sequence recovery functions, each with
its list of stream handles. Red-black trees are maps by their key.
-/
import TsnSwitch.Frer.Table

namespace TsnSwitch.Frer

/-- `enum frer_dir`. -/
inductive FrerDir where
  | inFac
  | outFac
  | unknown
  deriving DecidableEq

def DIR_IN_FAC : BitVec 8 := 0
def DIR_OUT_FAC : BitVec 8 := 1

/-- `enum _seqenc_active`. -/
inductive EncActive where
  | passive
  | active
  /-- The entry exists, its mode is not set yet. -/
  | unknown
  /-- The entry does not exist. -/
  | undefined
  deriving DecidableEq

/-- `enum _seqrec_alg`. -/
inductive RecAlg where
  | vect
  | match
  | unknown
  deriving DecidableEq

/-- `struct _seqgen_rbt` without its key. -/
structure SeqGen where
  sgList : List (BitVec 16) := []
  dir : FrerDir := .unknown
  deriving DecidableEq

/-- `struct _se_ports`. -/
structure SePort where
  seList : List (BitVec 16) := []
  active : EncActive := .undefined
  deriving DecidableEq

/-- `struct _seqrec_rbt` without its key. -/
structure SeqRec where
  srList : List (BitVec 16) := []
  alg : RecAlg := .unknown
  rcvRst : BitVec 16 := FRER_U16_INVALID
  ptmask : BitVec 16 := 0
  dir : FrerDir := .unknown
  histLen : BitVec 8
  takeNoSeq : BitVec 8 := FRER_BOOL_INVALID
  indRec : BitVec 8 := FRER_BOOL_INVALID
  latErr : BitVec 8 := FRER_BOOL_INVALID
  seqrecCfgApplied : Bool := false
  deriving DecidableEq

/-- What the driver reads from the hardware when it is probed. -/
structure Params where
  streamsMax : Nat
  seqrecMax : Nat
  numPorts : Nat
  seqrecRst : Fin 16 → BitVec 16
  streams_le : streamsMax ≤ FRER_MAX_NO_STREAMS
  seqrec_le : seqrecMax ≤ FRER_MAX_NO_STREAMS

/-- A device with three ports, to run the calls on. -/
def Params.threePorts : Params := ⟨16, 16, 3, fun _ => 0, by decide, by decide⟩

/-- `struct edgx_frer` and the tables of the hardware. -/
structure EdgxFrer where
  sgRoot : BitVec 16 → Option SeqGen := fun _ => none
  sePorts : Port → SePort := fun _ => {}
  /-- The ports each stream is encoded for. -/
  seRoot : BitVec 16 → Option (BitVec 16) := fun _ => none
  srRoot : BitVec 16 → Option SeqRec := fun _ => none
  seqgencnt : BitVec 16 := 0
  seqreccnt : BitVec 16 := 0
  tbl : StreamTbl := ⟨fun _ _ => 0, fun _ => 0⟩
  /-- The configurations of the recovery functions. -/
  seqrecTbl : BitVec 16 → BitVec 16 := fun _ => 0

/-- The driver after the probe, with the hardware as it is after a reset. -/
def edgxProbeFrer : EdgxFrer := {}

/-- A call that returns an error without a change. -/
theorem refused {r : Int × EdgxFrer} {f : EdgxFrer} {e : Int} (he : e ≠ 0) (h : r = (e, f)) : r.1 ≠ 0 ∧ r.2 = f := by
  subst h
  exact ⟨he, rfl⟩

section Checks

variable (par : Params)

def edgxFrerCheckFnidx (fnidx : BitVec 16) : Int := if fnidx.toNat ≥ par.seqrecMax then -EINVAL else 0

def edgxFrerCheckStrhdl (strhdl : BitVec 16) : Int := if strhdl.toNat ≥ par.streamsMax then -EINVAL else 0

def edgxFrerCheckPort (ptid : Port) : Int := if ptid.val > par.numPorts then -EINVAL else 0

variable {par}

theorem inTable_of_checkStrhdl {s : BitVec 16} (h : edgxFrerCheckStrhdl par s = 0) : InTable s := by
  unfold edgxFrerCheckStrhdl at h
  split at h
  · exact absurd h (by decide)
  · exact Nat.lt_of_lt_of_le (Nat.not_le.1 ‹_›) par.streams_le

theorem inTable_of_checkFnidx {fnidx : BitVec 16} (h : edgxFrerCheckFnidx par fnidx = 0) : InTable fnidx := by
  unfold edgxFrerCheckFnidx at h
  split at h
  · exact absurd h (by decide)
  · exact Nat.lt_of_lt_of_le (Nat.not_le.1 ‹_›) par.seqrec_le

end Checks

end TsnSwitch.Frer
