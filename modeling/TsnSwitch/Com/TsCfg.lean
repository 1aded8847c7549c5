/-
The timestamp configuration of a port: `edgx_com_ts_cfg_set` and
`edgx_com_ts_cfg_get` of edge_com_ts.c.

No register is written, since the switch has no timestamps for single ports: what
is set is what is stored. The transmit type is stored before the receive filter
is checked, and both are before the answer is copied to the caller, so a request
may be rejected after it has changed something. With the filters for sync and
delay request the caller is told of another filter than the one that is stored
(`cfgSetOk_iff`).
-/
import TsnSwitch.Com.Skb

namespace TsnSwitch.Com

def HWTSTAMP_TX_OFF : BitVec 32 := 0
def HWTSTAMP_TX_ON : BitVec 32 := 1

def HWTSTAMP_FILTER_NONE : BitVec 32 := 0
def HWTSTAMP_FILTER_SOME : BitVec 32 := 2
def HWTSTAMP_FILTER_PTP_V2_L2_EVENT : BitVec 32 := 9
def HWTSTAMP_FILTER_PTP_V2_L2_SYNC : BitVec 32 := 10
def HWTSTAMP_FILTER_PTP_V2_L2_DELAY_REQ : BitVec 32 := 11
def HWTSTAMP_FILTER_PTP_V2_EVENT : BitVec 32 := 12

/-- `struct hwtstamp_config`. -/
structure HwtstampConfig where
  flags : BitVec 32 := 0
  txType : BitVec 32 := HWTSTAMP_TX_OFF
  rxFilter : BitVec 32 := HWTSTAMP_FILTER_NONE
  deriving DecidableEq

/-- What a port stores. Its flags are never written. -/
structure HwtsCfg extends HwtstampConfig where
  flags_eq : flags = 0

/-- The ports with timestamps. -/
abbrev TsConfigs := Fin EDGX_BR_MAX_PORTS → Option HwtsCfg

def HwtsCfg.setTxType (c : HwtsCfg) (txType : BitVec 32) : HwtsCfg := { c with txType }

def HwtsCfg.setRxFilter (c : HwtsCfg) (rxFilter : BitVec 32) : HwtsCfg := { c with rxFilter }

/-- `cfg` is what the caller asks for, if it can be read, and `copied` whether the
answer can be written. Returns what is reported to the caller too. -/
def edgxComTsCfgSet (ts : TsConfigs) (ptid : Fin EDGX_BR_MAX_PORTS) (cfg : Option HwtstampConfig) (copied : Bool) :
    Int × Option HwtstampConfig × TsConfigs :=
  match ts ptid with
  | none => (-EINVAL, none, ts)
  | some pts =>
    match cfg with
    | none => (-EFAULT, none, ts)
    | some cfg =>
      if cfg.flags ≠ 0 then (-EINVAL, none, ts)
      else if cfg.txType = HWTSTAMP_TX_OFF ∨ cfg.txType = HWTSTAMP_TX_ON then
        let pts := pts.setTxType cfg.txType
        let finish (cfg : HwtstampConfig) (pts : HwtsCfg) : Int × Option HwtstampConfig × TsConfigs :=
          (if copied then 0 else -EFAULT, if copied then some cfg else none, Function.update ts ptid (some pts))
        if cfg.rxFilter = HWTSTAMP_FILTER_NONE then finish cfg (pts.setRxFilter cfg.rxFilter)
        else if cfg.rxFilter = HWTSTAMP_FILTER_PTP_V2_L2_SYNC ∨ cfg.rxFilter = HWTSTAMP_FILTER_PTP_V2_L2_DELAY_REQ then
          finish { cfg with rxFilter := HWTSTAMP_FILTER_SOME } (pts.setRxFilter HWTSTAMP_FILTER_PTP_V2_EVENT)
        else if cfg.rxFilter = HWTSTAMP_FILTER_PTP_V2_L2_EVENT then finish cfg (pts.setRxFilter cfg.rxFilter)
        else (-ERANGE, none, Function.update ts ptid (some pts))
      else (-ERANGE, none, ts)

def edgxComTsCfgGet (ts : TsConfigs) (ptid : Fin EDGX_BR_MAX_PORTS) (copied : Bool) : Int × Option HwtstampConfig :=
  match ts ptid with
  | none => (-EINVAL, none)
  | some pts => if copied then (0, some pts.toHwtstampConfig) else (-EFAULT, none)

/-! ## What is asked -/

/-- A rejected request changes nothing. After an accepted one the port stores what
was reported, and so does the next read. -/
structure CfgSetOk (ts : TsConfigs) (ptid : Fin EDGX_BR_MAX_PORTS) (cfg : Option HwtstampConfig) (copied : Bool) :
    Prop where
  rejected : (edgxComTsCfgSet ts ptid cfg copied).1 ≠ 0 → (edgxComTsCfgSet ts ptid cfg copied).2.2 = ts
  accepted : (edgxComTsCfgSet ts ptid cfg copied).1 = 0 →
    (edgxComTsCfgSet ts ptid cfg copied).2.1 = (edgxComTsCfgGet (edgxComTsCfgSet ts ptid cfg copied).2.2 ptid true).2
  others : ∀ p, p ≠ ptid → (edgxComTsCfgSet ts ptid cfg copied).2.2 p = ts p

/-- The filters for single messages, which stand for all events. -/
def IsMessageFilter (rxFilter : BitVec 32) : Prop :=
  rxFilter = HWTSTAMP_FILTER_PTP_V2_L2_SYNC ∨ rxFilter = HWTSTAMP_FILTER_PTP_V2_L2_DELAY_REQ

/-- The filters that are stored as they are. -/
def IsPlainFilter (rxFilter : BitVec 32) : Prop :=
  rxFilter = HWTSTAMP_FILTER_NONE ∨ rxFilter = HWTSTAMP_FILTER_PTP_V2_L2_EVENT

instance IsMessageFilter.instDecidable (rxFilter : BitVec 32) : Decidable (IsMessageFilter rxFilter) :=
  inferInstanceAs (Decidable (_ ∨ _))

instance IsPlainFilter.instDecidable (rxFilter : BitVec 32) : Decidable (IsPlainFilter rxFilter) :=
  inferInstanceAs (Decidable (_ ∨ _))

theorem IsMessageFilter.not_plain {rxFilter : BitVec 32} (h : IsMessageFilter rxFilter) : ¬ IsPlainFilter rxFilter := by
  rcases h with rfl | rfl <;> decide

/-- The filter that is stored for one that is supported. -/
def storedFilter (rxFilter : BitVec 32) : BitVec 32 :=
  if IsMessageFilter rxFilter then HWTSTAMP_FILTER_PTP_V2_EVENT else rxFilter

/-- A request that passes the checks up to the transmit type. -/
structure TxAccepted (cfg : HwtstampConfig) : Prop where
  flags : cfg.flags = 0
  txType : cfg.txType = HWTSTAMP_TX_OFF ∨ cfg.txType = HWTSTAMP_TX_ON

/-- The requests that do no harm to a port that stores `pts`. -/
structure Harmless (pts : HwtsCfg) (cfg : HwtstampConfig) (copied : Bool) : Prop where
  unsupported : ¬ (IsPlainFilter cfg.rxFilter ∨ IsMessageFilter cfg.rxFilter) → cfg.txType = pts.txType
  answered : copied = true → ¬ IsMessageFilter cfg.rxFilter
  unanswered : copied = false → IsPlainFilter cfg.rxFilter ∨ IsMessageFilter cfg.rxFilter →
    cfg.txType = pts.txType ∧ storedFilter cfg.rxFilter = pts.rxFilter

/-! ## The ways through the function -/

/-- What is reported of a request that is accepted. -/
def answer (cfg : HwtstampConfig) : HwtstampConfig :=
  if IsMessageFilter cfg.rxFilter then { cfg with rxFilter := HWTSTAMP_FILTER_SOME } else cfg

section Cases

variable {ts : TsConfigs} {ptid : Fin EDGX_BR_MAX_PORTS} {pts : HwtsCfg} {cfg : HwtstampConfig}

/-- What a request leaves that comes to the receive filter. -/
def HwtsCfg.set (pts : HwtsCfg) (cfg : HwtstampConfig) : HwtsCfg :=
  if IsPlainFilter cfg.rxFilter ∨ IsMessageFilter cfg.rxFilter then
    (pts.setTxType cfg.txType).setRxFilter (storedFilter cfg.rxFilter)
  else pts.setTxType cfg.txType

theorem cfgSet_eq (hpts : ts ptid = some pts) (h : TxAccepted cfg) (copied : Bool) :
    edgxComTsCfgSet ts ptid (some cfg) copied =
      let ts := Function.update ts ptid (some (pts.set cfg))
      if IsPlainFilter cfg.rxFilter then (if copied then 0 else -EFAULT, if copied then some cfg else none, ts)
      else if IsMessageFilter cfg.rxFilter then
        (if copied then 0 else -EFAULT,
          if copied then some { cfg with rxFilter := HWTSTAMP_FILTER_SOME } else none, ts)
      else (-ERANGE, none, ts) := by
  unfold edgxComTsCfgSet
  rw [hpts]
  dsimp only
  rw [if_neg (not_not.2 h.flags), if_pos h.txType]
  unfold HwtsCfg.set storedFilter
  by_cases hplain : IsPlainFilter cfg.rxFilter
  · have hmsg : ¬ IsMessageFilter cfg.rxFilter := fun hmsg => hmsg.not_plain hplain
    have hnot : ¬ (cfg.rxFilter = HWTSTAMP_FILTER_PTP_V2_L2_SYNC ∨
      cfg.rxFilter = HWTSTAMP_FILTER_PTP_V2_L2_DELAY_REQ) := hmsg
    have hevent (hnone : cfg.rxFilter ≠ HWTSTAMP_FILTER_NONE) : cfg.rxFilter = HWTSTAMP_FILTER_PTP_V2_L2_EVENT :=
      hplain.resolve_left hnone
    simp only [hplain, hmsg, hnot, true_or, if_true, if_false]
    split
    · rfl
    · rename_i hnone
      rw [if_pos (hevent hnone)]
  · obtain ⟨hnone, hevent⟩ := not_or.1 hplain
    by_cases hmsg : IsMessageFilter cfg.rxFilter
    · have hor : cfg.rxFilter = HWTSTAMP_FILTER_PTP_V2_L2_SYNC ∨
        cfg.rxFilter = HWTSTAMP_FILTER_PTP_V2_L2_DELAY_REQ := hmsg
      simp only [hplain, hnone, hmsg, hor, or_true, if_true, if_false]
    · have hnot : ¬ (cfg.rxFilter = HWTSTAMP_FILTER_PTP_V2_L2_SYNC ∨
        cfg.rxFilter = HWTSTAMP_FILTER_PTP_V2_L2_DELAY_REQ) := hmsg
      simp only [hplain, hnone, hevent, hmsg, hnot, or_self, if_false]

/-- A request that does not come to the receive filter. -/
theorem cfgSet_refused {cfg : Option HwtstampConfig} (h : ∀ pts c, ts ptid = some pts → cfg = some c → ¬ TxAccepted c)
    (copied : Bool) : ∃ e, e ≠ 0 ∧ edgxComTsCfgSet ts ptid cfg copied = (e, none, ts) := by
  unfold edgxComTsCfgSet
  cases hpts : ts ptid with
  | none => exact ⟨_, by decide, rfl⟩
  | some pts =>
    cases cfg with
    | none => exact ⟨_, by decide, rfl⟩
    | some c =>
      dsimp only
      by_cases hflags : c.flags = 0
      · have htx : ¬ (c.txType = HWTSTAMP_TX_OFF ∨ c.txType = HWTSTAMP_TX_ON) :=
          fun htx => h pts c hpts rfl ⟨hflags, htx⟩
        rw [if_neg (not_not.2 hflags), if_neg htx]
        exact ⟨_, by decide, rfl⟩
      · rw [if_pos hflags]
        exact ⟨_, by decide, rfl⟩

theorem update_self_iff {pts' : HwtsCfg} (hpts : ts ptid = some pts) :
    Function.update ts ptid (some pts') = ts ↔ pts'.txType = pts.txType ∧ pts'.rxFilter = pts.rxFilter := by
  rw [Function.update_eq_self_iff, hpts, Option.some.injEq]
  constructor
  · intro h
    rw [h]
    exact ⟨rfl, rfl⟩
  · obtain ⟨⟨flags, txType, rxFilter⟩, hflags⟩ := pts
    obtain ⟨⟨flags', txType', rxFilter'⟩, hflags'⟩ := pts'
    cases hflags
    cases hflags'
    rintro ⟨rfl, rfl⟩
    rfl

/-- A request that fails changes nothing just when it stores what was stored. -/
theorem cfgSetOk_failed {cfg told : Option HwtstampConfig} {copied : Bool} {e : Int} {pts' : HwtsCfg}
    (hpts : ts ptid = some pts) (he : e ≠ 0)
    (h : edgxComTsCfgSet ts ptid cfg copied = (e, told, Function.update ts ptid (some pts'))) :
    CfgSetOk ts ptid cfg copied ↔ pts'.txType = pts.txType ∧ pts'.rxFilter = pts.rxFilter := by
  rw [← update_self_iff hpts]
  constructor
  · intro hok
    have hsame := hok.rejected (by rw [h]; exact he)
    rwa [h] at hsame
  · intro hsame
    refine ⟨fun _ => ?_, fun hret => ?_, fun p _ => ?_⟩
    · rw [h]
      exact hsame
    · rw [h] at hret
      exact absurd hret he
    · rw [h]
      exact congrFun hsame p

/-- A request that succeeds tells what is stored. -/
theorem cfgSetOk_done {cfg told : Option HwtstampConfig} {copied : Bool} {pts' : HwtsCfg}
    (h : edgxComTsCfgSet ts ptid cfg copied = (0, told, Function.update ts ptid (some pts'))) :
    CfgSetOk ts ptid cfg copied ↔ told = some pts'.toHwtstampConfig := by
  have hget : (edgxComTsCfgGet (Function.update ts ptid (some pts')) ptid true).2 = some pts'.toHwtstampConfig := by
    rw [edgxComTsCfgGet, Function.update_self]
    rfl
  constructor
  · intro hok
    have htold := hok.accepted (by rw [h])
    rwa [h, hget] at htold
  · intro htold
    refine ⟨fun hne => ?_, fun _ => ?_, fun p hp => ?_⟩
    · rw [h] at hne
      exact absurd rfl hne
    · rw [h, hget]
      exact htold
    · rw [h]
      exact Function.update_of_ne hp _ _

/-- The filter that stands for single messages is not stored. -/
theorem answer_eq_set_iff (htx : TxAccepted cfg) (hsupp : IsPlainFilter cfg.rxFilter ∨ IsMessageFilter cfg.rxFilter) :
    answer cfg = (pts.set cfg).toHwtstampConfig ↔ ¬ IsMessageFilter cfg.rxFilter := by
  rw [show pts.set cfg = (pts.setTxType cfg.txType).setRxFilter (storedFilter cfg.rxFilter) from if_pos hsupp,
    answer, storedFilter]
  by_cases hmsg : IsMessageFilter cfg.rxFilter
  · rw [if_pos hmsg, if_pos hmsg]
    refine iff_of_false (fun htold => ?_) (not_not.2 hmsg)
    have hrx : HWTSTAMP_FILTER_SOME = HWTSTAMP_FILTER_PTP_V2_EVENT := congrArg HwtstampConfig.rxFilter htold
    exact absurd hrx (by decide)
  · obtain ⟨flags, txType, rxFilter⟩ := cfg
    rw [if_neg hmsg, if_neg hmsg]
    refine iff_of_true ?_ hmsg
    show _ = HwtstampConfig.mk pts.flags txType rxFilter
    rw [pts.flags_eq, ← htx.flags]

/-- A request whose filter is supported. -/
theorem cfgSet_answer (hpts : ts ptid = some pts) (htx : TxAccepted cfg)
    (hsupp : IsPlainFilter cfg.rxFilter ∨ IsMessageFilter cfg.rxFilter) (copied : Bool) :
    edgxComTsCfgSet ts ptid (some cfg) copied = (if copied then 0 else -EFAULT,
      if copied then some (answer cfg) else none, Function.update ts ptid (some (pts.set cfg))) := by
  rw [cfgSet_eq hpts htx copied, answer]
  dsimp only
  by_cases hmsg : IsMessageFilter cfg.rxFilter
  · rw [if_neg hmsg.not_plain, if_pos hmsg, if_pos hmsg]
  · rw [if_pos (hsupp.resolve_right hmsg), if_neg hmsg]

/-- What is reported and stored for a request that comes to the receive filter. -/
theorem cfgSetOk_reached (hpts : ts ptid = some pts) (htx : TxAccepted cfg) (copied : Bool) :
    CfgSetOk ts ptid (some cfg) copied ↔ Harmless pts cfg copied := by
  by_cases hsupp : IsPlainFilter cfg.rxFilter ∨ IsMessageFilter cfg.rxFilter
  · have hset : pts.set cfg = (pts.setTxType cfg.txType).setRxFilter (storedFilter cfg.rxFilter) := if_pos hsupp
    have hanswer := cfgSet_answer hpts htx hsupp copied
    cases copied with
    | true =>
      rw [cfgSetOk_done hanswer, if_pos rfl, Option.some.injEq, answer_eq_set_iff htx hsupp]
      exact ⟨fun hmsg => ⟨fun hnot => absurd hsupp hnot, fun _ => hmsg, nofun⟩, fun h => h.answered rfl⟩
    | false =>
      rw [cfgSetOk_failed hpts (by decide) hanswer, hset]
      exact ⟨fun hsame => ⟨fun hnot => absurd hsupp hnot, nofun, fun _ _ => hsame⟩, fun h => h.unanswered rfl hsupp⟩
  · have hset : pts.set cfg = pts.setTxType cfg.txType := if_neg hsupp
    obtain ⟨hplain, hmsg⟩ := not_or.1 hsupp
    have heq := cfgSet_eq hpts htx copied
    dsimp only at heq
    rw [if_neg hplain, if_neg hmsg] at heq
    rw [cfgSetOk_failed hpts (by decide) heq, hset]
    refine ⟨fun hsame => ⟨fun _ => hsame.1, fun _ => hmsg, fun _ hsupp' => absurd hsupp' hsupp⟩, fun h => ?_⟩
    exact ⟨h.unsupported hsupp, rfl⟩

end Cases

/-! ## All requests -/

/-- **A request leaves what the caller is told**, or nothing, just when no part of
it is stored before it is refused, and it asks for no single message. -/
theorem cfgSetOk_iff (ts : TsConfigs) (ptid : Fin EDGX_BR_MAX_PORTS) (cfg : Option HwtstampConfig) (copied : Bool) :
    CfgSetOk ts ptid cfg copied ↔
      ∀ pts c, ts ptid = some pts → cfg = some c → TxAccepted c → Harmless pts c copied := by
  by_cases hreach : ∃ pts c, ts ptid = some pts ∧ cfg = some c ∧ TxAccepted c
  · obtain ⟨pts, c, hpts, rfl, htx⟩ := hreach
    have hall : (∀ pts' c', ts ptid = some pts' → some c = some c' → TxAccepted c' → Harmless pts' c' copied) ↔
        Harmless pts c copied := by
      refine ⟨fun h => h pts c hpts rfl htx, fun h pts' c' hpts' hc' _ => ?_⟩
      cases hpts.symm.trans hpts'
      cases hc'
      exact h
    rw [hall]
    exact cfgSetOk_reached hpts htx copied
  · have hnone (pts : HwtsCfg) (c : HwtstampConfig) (hpts : ts ptid = some pts) (hc : cfg = some c) : ¬ TxAccepted c :=
      fun htx => hreach ⟨pts, c, hpts, hc, htx⟩
    obtain ⟨e, he, heq⟩ := cfgSet_refused hnone copied
    refine iff_of_true ⟨?_, ?_, ?_⟩ fun pts c hpts hc htx => absurd htx (hnone pts c hpts hc)
    · intro _
      rw [heq]
    · intro h
      rw [heq] at h
      exact absurd h he
    · intro p _
      rw [heq]

/-- A port without timestamps is asked for those of all frames: that is refused,
but they are switched on. Asked for those of the syncs, it reports some and
stores those of the events. -/
theorem not_cfgSetOk :
    let ts : TsConfigs := fun _ => some ⟨{}, rfl⟩
    let p : Fin EDGX_BR_MAX_PORTS := ⟨0, maxPorts_pos⟩
    (edgxComTsCfgSet ts p (some ⟨0, HWTSTAMP_TX_ON, 1⟩) true).1 = -ERANGE ∧
    (edgxComTsCfgGet (edgxComTsCfgSet ts p (some ⟨0, HWTSTAMP_TX_ON, 1⟩) true).2.2 p true).2 =
      some ⟨0, HWTSTAMP_TX_ON, HWTSTAMP_FILTER_NONE⟩ ∧
    ¬ CfgSetOk ts p (some ⟨0, HWTSTAMP_TX_ON, 1⟩) true ∧
    ¬ CfgSetOk ts p (some ⟨0, HWTSTAMP_TX_ON, HWTSTAMP_FILTER_PTP_V2_L2_SYNC⟩) true := by
  intro ts p
  have hstored : (edgxComTsCfgGet (edgxComTsCfgSet ts p (some ⟨0, HWTSTAMP_TX_ON, 1⟩) true).2.2 p true).2 =
      some ⟨0, HWTSTAMP_TX_ON, HWTSTAMP_FILTER_NONE⟩ := by decide
  refine ⟨by decide, hstored, fun h => ?_, fun h => ?_⟩
  · have hkept := h.rejected (by decide)
    rw [hkept] at hstored
    exact absurd hstored (by decide)
  · exact absurd (h.accepted (by decide)) (by decide)

end TsnSwitch.Com
