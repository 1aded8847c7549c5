/-
Wake-ups: a queue that was stopped is recorded at its ring, and the ring has a
completion to come for each record (`recorded_of_ok`), after every run in which

  - a frame that is refused although there is room finds more frames in the
    ring than records, and
  - a frame whose queue is stopped finds room for its record.

Neither is always so: a frame that cannot be mapped can be refused by an empty
ring, and timeouts wake queues and leave their records.
-/
import TsnSwitch.Com.Dma

namespace TsnSwitch.Com

open Lib

section Wake

variable {Dev : Type*} [DecidableEq Dev] (nd : NetDevs Dev)

/-! ## The property -/

/-- The ring of a device's queue. -/
def EdgxComDma.ringOf (d : EdgxComDma Dev) (dev : Dev) (i : Nat) : Nat :=
  if nd.edgxDev2ptid dev = none then i else d.qIdxBrpt

/-- A queue that is stopped is recorded, and a ring with records has frames to
complete, one for each. -/
structure Recorded (d : EdgxComDma Dev) : Prop where
  stopped : ∀ dev i, d.stopped dev i = true → dev ∈ (d.txQueue (d.ringOf nd dev i)).pendingDevs
  nonempty : ∀ j, (d.txQueue j).pendingDevs ≠ [] → (d.txQueue j).cnt ≠ 0
  enough : ∀ j, (d.txQueue j).pendingDevs.length ≤ (d.txQueue j).cnt

/-- A frame as it gets to its ring. -/
def EdgxComDma.onRing (d : EdgxComDma Dev) (skb : Skb Dev) : Nat :=
  if nd.edgxDev2ptid skb.dev = none then skb.queueMapping else d.qIdxBrpt

/-- The frame, if it can be padded: when it is refused although there is room,
there are frames enough, and when its queue is stopped, there is room for a
record or a record already. -/
def WakeOk (d : EdgxComDma Dev) : DmaOp Dev → Prop
  | .xmit skb _ _ env =>
    let q := d.txQueue (d.onRing nd skb)
    ¬ (skb.len < ETH_ZLEN ∧ env.pad = false) →
      (q.refusesWithRoom env.physAddr → q.pendingDevs.length < EDGX_BR_MAX_PORTS → q.pendingDevs.length < q.cnt) ∧
      (q.refusesWithRoom env.physAddr ∨ q.cnt ≥ EDGX_DMA_DESC_CNT - 2 →
        q.pendingDevs.length < EDGX_BR_MAX_PORTS ∨ skb.dev ∈ q.pendingDevs)
  | _ => True

instance (d : EdgxComDma Dev) : ∀ op, Decidable (WakeOk nd d op)
  | .xmit _ _ _ _ => inferInstanceAs (Decidable (_ → (_ → _ → _) ∧ (_ → _)))
  | .deqTx _ | .wake _ _ | .hw _ _ => isTrue trivial

/-- The step completes a frame of ring `j`. -/
def completes (j : Nat) : DmaOp Dev × DmaRet Dev → Bool
  | (.deqTx k, .deqTx (some _)) => decide (k = j)
  | _ => false

/-! ## The invariant -/

/-- The frames of a ring are of the queues it serves. -/
structure WakeInv (d : EdgxComDma Dev) : Prop where
  ring : ∀ j, ∃ xs, RingHolds (d.txQueue j) xs ∧ ∀ skb ∈ xs, skb.queueMapping = j
  stopped : ∀ dev i, d.stopped dev i = true → dev ∈ (d.txQueue (d.ringOf nd dev i)).pendingDevs
  bridge : ∀ dev i, d.stopped dev i = true → nd.edgxDev2ptid dev ≠ none → i = 0
  enough : ∀ j, (d.txQueue j).pendingDevs.length ≤ (d.txQueue j).cnt
  fifo : ∀ j, (d.txQueue j).pendingDevs.length ≤ EDGX_BR_MAX_PORTS

variable {nd}

section Fifo

variable {α : Type*} {size : Nat} {q : List α} {a b : α}

theorem kfifoPut_length (h : q.length ≤ size) : (kfifoPut size q a).2.length ≤ size := by
  unfold kfifoPut
  split
  · rw [List.length_append, List.length_singleton]
    omega
  · exact h

theorem mem_kfifoPut (h : b ∈ q) : b ∈ (kfifoPut size q a).2 := by
  unfold kfifoPut
  split
  · exact List.mem_append_left _ h
  · exact h

theorem mem_kfifoPut_self (h : q.length < size ∨ a ∈ q) : a ∈ (kfifoPut size q a).2 := by
  unfold kfifoPut
  split
  · exact List.mem_append_right _ (List.mem_singleton_self a)
  · exact h.resolve_left ‹_›

end Fifo

theorem EdgxComDma.setStopped_apply (d : EdgxComDma Dev) (dev : Dev) (i : Nat) (b : Bool) (dev' : Dev) (i' : Nat) :
    (d.setStopped dev i b).stopped dev' i' = if dev' = dev ∧ i' = i then b else d.stopped dev' i' := by
  simp only [EdgxComDma.setStopped, Function.update_apply]
  by_cases hdev : dev' = dev
  · subst hdev
    rw [if_pos rfl, Function.update_apply]
    simp
  · simp [hdev]

/-- A queue that is stopped when another was woken was stopped before. -/
theorem EdgxComDma.stopped_of_woken {d : EdgxComDma Dev} {dev dev' : Dev} {i i' : Nat}
    (hs : (d.setStopped dev i false).stopped dev' i' = true) : d.stopped dev' i' = true := by
  rw [EdgxComDma.setStopped_apply] at hs
  split at hs
  · exact absurd hs Bool.false_ne_true
  · exact hs

omit [DecidableEq Dev] in
/-- The ring that a frame is told to go to. -/
theorem queueMapping_eq_onRing (d : EdgxComDma Dev) (skb : Skb Dev) :
    (if nd.edgxDev2ptid skb.dev = none then skb else { skb with queueMapping := d.qIdxBrpt }).queueMapping =
      d.onRing nd skb := by
  unfold EdgxComDma.onRing
  split <;> rfl

theorem xmit_eq (d : EdgxComDma Dev) (skb : Skb Dev) (ptcom flags : BitVec 16) (env : XmitEnv) :
    (edgxComDmaXmit nd d skb ptcom flags env).2 = (edgxDmaEnqTx nd d (d.onRing nd skb)
      (if nd.edgxDev2ptid skb.dev = none then skb else { skb with queueMapping := d.qIdxBrpt }) ptcom flags env).2 := by
  rw [← queueMapping_eq_onRing]
  rfl

namespace WakeInv

variable {d : EdgxComDma Dev}

omit [DecidableEq Dev] in
theorem init (n brpt : Nat) (ts : EdgxComTs (Skb Dev)) : WakeInv nd { realNumTxQueues := n, qIdxBrpt := brpt, ts } :=
  ⟨fun _ => ⟨[], .init, fun _ h => (nomatch h)⟩, fun _ _ h => (nomatch h), fun _ _ h => (nomatch h),
    fun _ => Nat.zero_le _, fun _ => Nat.zero_le _⟩

omit [DecidableEq Dev] in
/-- One ring is replaced. -/
theorem set (hi : WakeInv nd d) {d' : EdgxComDma Dev} {j : Nat} {q : EdgxDmaQueue Dev} {xs : List (Skb Dev)}
    (hq : d'.txQueue = Function.update d.txQueue j q) (hbrpt : d'.qIdxBrpt = d.qIdxBrpt)
    (hring : RingHolds q xs) (hmap : ∀ skb ∈ xs, skb.queueMapping = j)
    (hstop : ∀ dev i, d'.stopped dev i = true →
      (nd.edgxDev2ptid dev ≠ none → i = 0) ∧
      (d.ringOf nd dev i ≠ j → d.stopped dev i = true) ∧ (d.ringOf nd dev i = j → dev ∈ q.pendingDevs))
    (henough : q.pendingDevs.length ≤ q.cnt) (hfifo : q.pendingDevs.length ≤ EDGX_BR_MAX_PORTS) : WakeInv nd d' := by
  have hself : d'.txQueue j = q := by rw [hq, Function.update_self]
  have hother : ∀ k, k ≠ j → d'.txQueue k = d.txQueue k := fun k hk => by rw [hq, Function.update_of_ne hk]
  have hring' : ∀ dev i, d'.ringOf nd dev i = d.ringOf nd dev i := fun dev i => by
    rw [EdgxComDma.ringOf, EdgxComDma.ringOf, hbrpt]
  constructor
  case ring =>
    intro k
    by_cases hk : k = j
    · exact ⟨xs, by rw [hk, hself]; exact hring, by rw [hk]; exact hmap⟩
    · rw [hother k hk]
      exact hi.ring k
  case stopped =>
    intro dev i hs
    obtain ⟨_, hne, heq⟩ := hstop dev i hs
    rw [hring']
    by_cases hk : d.ringOf nd dev i = j
    · rw [hk, hself]
      exact heq hk
    · rw [hother _ hk]
      exact hi.stopped dev i (hne hk)
  case bridge => exact fun dev i hs => (hstop dev i hs).1
  case enough =>
    intro k
    by_cases hk : k = j
    · rw [hk, hself]
      exact henough
    · rw [hother k hk]
      exact hi.enough k
  case fifo =>
    intro k
    by_cases hk : k = j
    · rw [hk, hself]
      exact hfifo
    · rw [hother k hk]
      exact hi.fifo k

/-- A transmission: the frame cannot be padded, or it is put into the ring and
nothing else happens, or its queue is stopped and recorded. -/
theorem enqTx_cases (nd : NetDevs Dev) (d : EdgxComDma Dev) {j : Nat} {xs : List (Skb Dev)} (hx : RingHolds (d.txQueue j) xs)
    (skb : Skb Dev) (portMask flags : BitVec 16) (env : XmitEnv) :
    let d' := (edgxDmaEnqTx nd d j skb portMask flags env).2
    let q := d.txQueue j
    d' = d ∨ ¬ (skb.len < ETH_ZLEN ∧ env.pad = false) ∧ d'.qIdxBrpt = d.qIdxBrpt ∧
      ∃ q' len, d'.txQueue = Function.update d.txQueue j q' ∧
        (RingHolds q' (xs ++ [{ skb with len }]) ∧ q'.pendingDevs = q.pendingDevs ∧ d'.stopped = d.stopped ∨
        (q.refusesWithRoom env.physAddr ∨ q.cnt ≥ EDGX_DMA_DESC_CNT - 2) ∧
          (RingHolds q' xs ∧ (q.cnt = EDGX_DMA_DESC_CNT - 1 ∨ q.refusesWithRoom env.physAddr) ∨
            RingHolds q' (xs ++ [{ skb with len }]) ∧ q'.cnt = EDGX_DMA_DESC_CNT - 1) ∧
          q'.pendingDevs = (kfifoPut EDGX_BR_MAX_PORTS q.pendingDevs skb.dev).2 ∧
          d'.stopped = (d.setStopped skb.dev (subqueueOf nd skb.dev skb.queueMapping) true).stopped) := by
  intro d' q
  have hd : d' = (edgxDmaEnqTx nd d j skb portMask flags env).2 := rfl
  unfold edgxDmaEnqTx at hd
  split at hd
  · exact .inl hd
  · rename_i hpad
    refine .inr ⟨hpad, ?_⟩
    -- the padded frame differs in its length only
    obtain ⟨len, hskb⟩ : ∃ len, (if skb.len < ETH_ZLEN then { skb with len := ETH_ZLEN } else skb) = { skb with len } := by
      split
      · exact ⟨ETH_ZLEN, rfl⟩
      · exact ⟨skb.len, rfl⟩
    have hcases := hx.enq { skb with len } portMask flags (some d.ts) env.clone env.physAddr
    rw [hskb] at hd
    rcases hr : edgxDmaEnq (d.txQueue j) { skb with len } portMask flags (some d.ts) env.clone env.physAddr with ⟨ret, q₁, ts⟩
    dsimp only at hd
    rw [hr] at hd hcases
    dsimp only at hd hcases
    rcases hcases with ⟨hwhy, hret, rfl⟩ | ⟨hroom, hno, hret, hpend, hx'⟩
    · rw [hret, if_pos (by decide)] at hd
      refine ⟨by rw [hd]; rfl, _, len, by rw [hd]; rfl, .inr ⟨?_, .inl ⟨?_, hwhy⟩, rfl, by rw [hd]; rfl⟩⟩
      · rcases hwhy with hfull | hno
        · exact .inr (by rw [show q = d.txQueue j from rfl, hfull]; decide)
        · exact .inl hno
      · exact ⟨hx.holds, hx.cnt, hx.enqPos, hx.cnt_le, hx.toDevice⟩
    · by_cases hlast : (d.txQueue j).cnt + 1 < EDGX_DMA_DESC_CNT - 1
      · rw [hret, if_pos hlast, if_neg (by decide)] at hd
        exact ⟨by rw [hd], q₁, len, by rw [hd], .inl ⟨hx', hpend, by rw [hd]⟩⟩
      · rw [hret, if_neg hlast, if_pos (by decide), hpend] at hd
        refine ⟨by rw [hd]; rfl, _, len, by rw [hd]; rfl, .inr ⟨.inr ?_, .inr ⟨?_, ?_⟩, rfl, by rw [hd]; rfl⟩⟩
        · have hdef : EDGX_DMA_DESC_CNT = 256 := rfl
          show q.cnt ≥ _
          have : q.cnt = (d.txQueue j).cnt := rfl
          omega
        · exact ⟨hx'.holds, hx'.cnt, hx'.enqPos, hx'.cnt_le, hx'.toDevice⟩
        · have hlen : (xs ++ [{ skb with len }]).length = xs.length + 1 := List.length_append
          have hcnt := hx'.cnt
          have hcnt' := hx.cnt
          have hle := hx'.cnt_le
          dsimp only
          omega

theorem xmit (hi : WakeInv nd d) {skb : Skb Dev} {ptcom flags : BitVec 16} {env : XmitEnv}
    (hok : WakeOk nd d (.xmit skb ptcom flags env)) : WakeInv nd (edgxComDmaXmit nd d skb ptcom flags env).2 := by
  -- the frame as it gets to its ring
  obtain ⟨skb', hskb', hdev, hlen, hmap, hsub⟩ : ∃ skb', (if nd.edgxDev2ptid skb.dev = none then skb
      else { skb with queueMapping := d.qIdxBrpt }) = skb' ∧ skb'.dev = skb.dev ∧ skb'.len = skb.len ∧
      skb'.queueMapping = d.onRing nd skb ∧
      (nd.edgxDev2ptid skb.dev ≠ none → subqueueOf nd skb.dev skb'.queueMapping = 0) := by
    refine ⟨_, rfl, ?_⟩
    unfold EdgxComDma.onRing subqueueOf
    split
    · rename_i hep
      exact ⟨rfl, rfl, rfl, fun h => absurd hep h⟩
    · rename_i hbr
      exact ⟨rfl, rfl, rfl, fun _ => rfl⟩
  rw [xmit_eq, hskb']
  obtain ⟨xs, hx, hmaps⟩ := hi.ring (d.onRing nd skb)
  have hmaps' : ∀ len, ∀ s ∈ xs ++ [{ skb' with len }], s.queueMapping = d.onRing nd skb := fun len s hs => by
    rcases List.mem_append.1 hs with hs | hs
    · exact hmaps s hs
    · rw [List.mem_singleton.1 hs]
      exact hmap
  have hcases := enqTx_cases nd d hx skb' ptcom flags env
  generalize (edgxDmaEnqTx nd d (d.onRing nd skb) skb' ptcom flags env).2 = d' at hcases
  rcases hcases with rfl | ⟨hpad, hbrpt, q', len, hq', hkeep | hstop⟩
  · exact hi
  · obtain ⟨hx', hpend, hsame⟩ := hkeep
    refine hi.set hq' hbrpt hx' (hmaps' len) (fun dev i hs => ?_) ?_ ?_
    · rw [hsame] at hs
      refine ⟨hi.bridge dev i hs, fun _ => hs, fun hring => ?_⟩
      rw [hpend, ← hring]
      exact hi.stopped dev i hs
    · have hle : q'.cnt = xs.length + 1 := by rw [hx'.cnt, List.length_append, List.length_singleton]
      have hcnt := hx.cnt
      have henough := hi.enough (d.onRing nd skb)
      rw [hpend]
      omega
    · rw [hpend]
      exact hi.fifo _
  · obtain ⟨hwhy, hx', hpend, hset⟩ := hstop
    rw [hlen] at hpad
    rw [hdev] at hpend hset
    obtain ⟨hspare, hroom⟩ := hok hpad
    have henough := hi.enough (d.onRing nd skb)
    have hfifo := hi.fifo (d.onRing nd skb)
    have hin : skb.dev ∈ q'.pendingDevs := by
      rw [hpend]
      exact mem_kfifoPut_self (hroom hwhy)
    -- the queue that is stopped is of the ring
    have hring : d.ringOf nd skb.dev (subqueueOf nd skb.dev skb'.queueMapping) = d.onRing nd skb := by
      unfold EdgxComDma.ringOf subqueueOf
      rw [hmap]
      unfold EdgxComDma.onRing
      split <;> rfl
    have hlenPut : q'.pendingDevs.length ≤ EDGX_BR_MAX_PORTS := hpend ▸ kfifoPut_length hfifo
    have hstopped : ∀ dev i, d'.stopped dev i = true →
        (nd.edgxDev2ptid dev ≠ none → i = 0) ∧
        (d.ringOf nd dev i ≠ d.onRing nd skb → d.stopped dev i = true) ∧
        (d.ringOf nd dev i = d.onRing nd skb → dev ∈ q'.pendingDevs) := by
      intro dev i hs
      rw [hset, EdgxComDma.setStopped_apply] at hs
      split at hs
      · rename_i heq
        obtain ⟨rfl, rfl⟩ := heq
        exact ⟨hsub, fun hne => absurd hring hne, fun _ => hin⟩
      · refine ⟨hi.bridge dev i hs, fun _ => hs, fun heq => ?_⟩
        rw [hpend]
        exact mem_kfifoPut (heq ▸ hi.stopped dev i hs)
    have hmax : EDGX_BR_MAX_PORTS = 16 := rfl
    have hdesc : EDGX_DMA_DESC_CNT = 256 := rfl
    rcases hx' with ⟨hx', hfull | hno⟩ | ⟨hx', hlast⟩
    · refine hi.set hq' hbrpt hx' hmaps hstopped ?_ hlenPut
      have hcnt : q'.cnt = (d.txQueue (d.onRing nd skb)).cnt := by rw [hx'.cnt, hx.cnt]
      omega
    · refine hi.set hq' hbrpt hx' hmaps hstopped ?_ hlenPut
      have hcnt : q'.cnt = (d.txQueue (d.onRing nd skb)).cnt := by rw [hx'.cnt, hx.cnt]
      rw [hpend, hcnt, kfifoPut]
      split
      · rename_i hlt
        have := hspare hno hlt
        rw [List.length_append, List.length_singleton]
        omega
      · exact henough
    · refine hi.set hq' hbrpt hx' (hmaps' len) hstopped ?_ hlenPut
      omega

/-- A completion: none, or one that wakes the device recorded first. -/
theorem deqTx_cases (nd : NetDevs Dev) (d : EdgxComDma Dev) {j : Nat} {xs : List (Skb Dev)} (hx : RingHolds (d.txQueue j) xs) :
    let r := edgxDmaDeqTx nd d j
    r.1 = none ∧ r.2 = d ∨ ∃ skb rest q', xs = skb :: rest ∧ r.1 = some skb ∧ r.2.qIdxBrpt = d.qIdxBrpt ∧
      r.2.txQueue = Function.update d.txQueue j q' ∧ RingHolds q' rest ∧
      ((d.txQueue j).pendingDevs = [] ∧ q'.pendingDevs = [] ∧ r.2.stopped = d.stopped ∨
        ∃ dev, (d.txQueue j).pendingDevs = dev :: q'.pendingDevs ∧
          r.2.stopped = (d.setStopped dev (subqueueOf nd dev skb.queueMapping) false).stopped) := by
  intro r
  have hr : r = edgxDmaDeqTx nd d j := rfl
  unfold edgxDmaDeqTx at hr
  have hcases := hx.deq 0
  rcases hdeq : edgxDmaDeq (d.txQueue j) 0 with ⟨out, errs, q⟩
  rw [hdeq] at hr hcases
  dsimp only at hcases
  rcases hcases with ⟨_, hnone, rfl⟩ | ⟨_, skb, rest, hcons, hsome, hpend, hx'⟩
  · rw [hnone] at hr
    refine .inl ⟨by rw [hr], ?_⟩
    rw [hr]
    dsimp only
    rw [Function.update_eq_self]
  · right
    cases out with
    | none => exact nomatch hsome
    | some out =>
      obtain ⟨skb₁, ports, flags⟩ := out
      obtain rfl : skb₁ = skb := Option.some.inj hsome
      dsimp only at hr
      cases hp : q.pendingDevs with
      | nil =>
        rw [hp] at hr
        exact ⟨skb₁, rest, q, hcons, by rw [hr]; rfl, by rw [hr]; rfl, by rw [hr]; rfl, hx',
          .inl ⟨by rw [← hpend, hp], hp, by rw [hr]; rfl⟩⟩
      | cons dev pend =>
        rw [hp] at hr
        exact ⟨skb₁, rest, { q with pendingDevs := pend }, hcons, by rw [hr]; rfl, by rw [hr]; rfl, by rw [hr]; rfl,
          ⟨hx'.holds, hx'.cnt, hx'.enqPos, hx'.cnt_le, hx'.toDevice⟩, .inr ⟨dev, by rw [← hpend, hp], by rw [hr]; rfl⟩⟩

/-- The queue of the device recorded first is woken. -/
theorem woken (hi : WakeInv nd d) {dev : Dev} {i j m : Nat} (hring : d.ringOf nd dev i = j) (hm : m = j)
    (hs : (d.setStopped dev (subqueueOf nd dev m) false).stopped dev i = true) : False := by
  rw [EdgxComDma.setStopped_apply] at hs
  split at hs
  · exact Bool.false_ne_true hs
  · rename_i hne
    refine hne ⟨rfl, ?_⟩
    unfold subqueueOf
    split
    · rename_i hep
      rw [hm, ← hring, EdgxComDma.ringOf, if_pos hep]
    · rename_i hbr
      exact hi.bridge dev i hs hbr

theorem deqTx (hi : WakeInv nd d) (j : Nat) : WakeInv nd (edgxDmaDeqTx nd d j).2 := by
  obtain ⟨xs, hx, hmaps⟩ := hi.ring j
  have hcases := deqTx_cases nd d hx
  generalize edgxDmaDeqTx nd d j = r at hcases
  rcases hcases with ⟨_, he⟩ | ⟨skb, rest, q', hcons, _, hbrpt, hq', hx', hpend⟩
  · rw [he]
    exact hi
  have hmap : skb.queueMapping = j := hmaps skb (hcons ▸ List.mem_cons_self)
  have hcnt : (d.txQueue j).cnt = q'.cnt + 1 := by rw [hx.cnt, hcons, hx'.cnt, List.length_cons]
  have henough := hi.enough j
  have hfifo := hi.fifo j
  refine hi.set hq' hbrpt hx' (fun s hs => hmaps s (hcons ▸ List.mem_cons_of_mem skb hs)) (fun dev i hs => ?_) ?_ ?_
  · rcases hpend with ⟨hnil, _, hsame⟩ | ⟨dev₁, hhead, hset⟩
    · rw [hsame] at hs
      refine ⟨hi.bridge dev i hs, fun _ => hs, fun hring => ?_⟩
      have hmem := hi.stopped dev i hs
      rw [hring, hnil] at hmem
      exact absurd hmem List.not_mem_nil
    · rw [hset] at hs
      have hs' := EdgxComDma.stopped_of_woken hs
      refine ⟨hi.bridge dev i hs', fun _ => hs', fun hring => ?_⟩
      have hmem := hi.stopped dev i hs'
      rw [hring, hhead] at hmem
      rcases List.mem_cons.1 hmem with rfl | hmem
      · exact (hi.woken hring hmap hs).elim
      · exact hmem
  · rcases hpend with ⟨_, hnil, _⟩ | ⟨dev₁, hhead, _⟩
    · rw [hnil]
      exact Nat.zero_le _
    · rw [hhead, List.length_cons] at henough
      omega
  · rcases hpend with ⟨_, hnil, _⟩ | ⟨dev₁, hhead, _⟩
    · rw [hnil]
      exact Nat.zero_le _
    · rw [hhead, List.length_cons] at hfifo
      omega

theorem wake (hi : WakeInv nd d) (dev : Dev) (i : Nat) : WakeInv nd (wakeStopped d dev i) := by
  unfold wakeStopped
  split
  · exact ⟨hi.ring, fun dev' i' hs => hi.stopped dev' i' (EdgxComDma.stopped_of_woken hs),
      fun dev' i' hs => hi.bridge dev' i' (EdgxComDma.stopped_of_woken hs), hi.enough, hi.fifo⟩
  · exact hi

omit [DecidableEq Dev] in
theorem hw (hi : WakeInv nd d) (j : Nat) (desc : Nat → EdgxComDmaDesc) :
    WakeInv nd { d with txQueue := Function.update d.txQueue j { d.txQueue j with desc } } := by
  obtain ⟨xs, hx, hmaps⟩ := hi.ring j
  refine hi.set rfl rfl (hx.hw desc) hmaps (fun dev i hs => ⟨hi.bridge dev i hs, fun _ => hs, fun hring => ?_⟩)
    (hi.enough j) (hi.fifo j)
  have hmem := hi.stopped dev i hs
  rwa [hring] at hmem

theorem step (hi : WakeInv nd d) {op : DmaOp Dev} (hok : WakeOk nd d op) : WakeInv nd (dmaStep nd d op).2 := by
  cases op with
  | xmit skb ptcom flags env => exact hi.xmit hok
  | deqTx j => exact hi.deqTx j
  | wake dev i => exact hi.wake dev i
  | hw j desc => exact hi.hw j desc

omit [DecidableEq Dev] in
theorem recorded (hi : WakeInv nd d) : Recorded nd d := by
  refine ⟨hi.stopped, fun j hne hcnt => hne ?_, hi.enough⟩
  have henough := hi.enough j
  rw [hcnt] at henough
  exact List.length_eq_zero_iff.1 (Nat.le_zero.1 henough)

/-- While a queue stays stopped, its record moves up with each completion. -/
theorem position (hi : WakeInv nd d) {op : DmaOp Dev} {dev : Dev} {i : Nat} (hs : d.stopped dev i = true)
    (hs' : (dmaStep nd d op).2.stopped dev i = true) :
    (dmaStep nd d op).2.ringOf nd dev i = d.ringOf nd dev i ∧
      ((dmaStep nd d op).2.txQueue (d.ringOf nd dev i)).pendingDevs.idxOf dev +
        (if completes (d.ringOf nd dev i) (op, (dmaStep nd d op).1) then 1 else 0) ≤
      (d.txQueue (d.ringOf nd dev i)).pendingDevs.idxOf dev := by
  have hmem := hi.stopped dev i hs
  have hringOf : ∀ d' : EdgxComDma Dev, d'.qIdxBrpt = d.qIdxBrpt → d'.ringOf nd dev i = d.ringOf nd dev i := fun d' h => by
    rw [EdgxComDma.ringOf, EdgxComDma.ringOf, h]
  generalize hj : d.ringOf nd dev i = j at hmem hringOf
  cases op with
  | xmit skb ptcom flags env =>
    obtain ⟨xs, hx, _⟩ := hi.ring (d.onRing nd skb)
    have hstep : (dmaStep nd d (.xmit skb ptcom flags env)).2 = _ := xmit_eq d skb ptcom flags env
    have hcases := enqTx_cases nd d hx
      (if nd.edgxDev2ptid skb.dev = none then skb else { skb with queueMapping := d.qIdxBrpt }) ptcom flags env
    rw [← hstep] at hcases
    have hno : completes j (DmaOp.xmit skb ptcom flags env, (dmaStep nd d (.xmit skb ptcom flags env)).1) = false := rfl
    rw [hno]
    generalize (dmaStep nd d (.xmit skb ptcom flags env)).2 = d' at hcases
    rcases hcases with rfl | ⟨_, hbrpt, q', len, hq', hkeep⟩
    · exact ⟨hj, Nat.le_refl _⟩
    · refine ⟨hringOf d' hbrpt, ?_⟩
      rw [hq']
      by_cases hjk : j = d.onRing nd skb
      · rw [hjk, Function.update_self]
        rw [hjk] at hmem
        rcases hkeep with ⟨_, hpend, _⟩ | ⟨_, _, hpend, _⟩
        · rw [hpend]
          exact Nat.le_refl _
        · rw [hpend, kfifoPut]
          split
          · rw [List.idxOf_append_of_mem hmem]
            exact Nat.le_refl _
          · exact Nat.le_refl _
      · rw [Function.update_of_ne hjk]
        exact Nat.le_refl _
  | deqTx k =>
    obtain ⟨xs, hx, hmaps⟩ := hi.ring k
    have hcases := deqTx_cases nd d hx
    have hret : (dmaStep nd d (.deqTx k)).1 = .deqTx (edgxDmaDeqTx nd d k).1 := rfl
    have hstep : (dmaStep nd d (.deqTx k)).2 = (edgxDmaDeqTx nd d k).2 := rfl
    rw [hstep] at hs'
    rw [hret, hstep]
    generalize edgxDmaDeqTx nd d k = r at hcases hs'
    rcases hcases with ⟨hnone, he⟩ | ⟨skb, rest, q', hcons, hsome, hbrpt, hq', _, hpend⟩
    · rw [hnone, he]
      exact ⟨hj, Nat.le_refl _⟩
    · refine ⟨hringOf _ hbrpt, ?_⟩
      rw [hsome, hq']
      by_cases hjk : j = k
      · rw [hjk, Function.update_self]
        rw [hjk] at hmem
        rcases hpend with ⟨hnil, _, _⟩ | ⟨dev₁, hhead, hset⟩
        · rw [hnil] at hmem
          exact absurd hmem List.not_mem_nil
        · have hne : dev₁ ≠ dev := by
            rintro rfl
            rw [hset] at hs'
            exact hi.woken (hj.trans hjk) (hmaps skb (hcons ▸ List.mem_cons_self)) hs'
          rw [hhead, List.idxOf_cons_ne _ hne, completes, decide_eq_true rfl, if_pos rfl]
      · rw [Function.update_of_ne hjk, completes, decide_eq_false (Ne.symm hjk)]
        exact Nat.le_refl _
  | wake dev₁ i₁ =>
    refine ⟨hringOf _ ?_, ?_⟩
    · simp only [dmaStep, wakeStopped]
      split <;> rfl
    · have htx : (dmaStep nd d (.wake dev₁ i₁)).2.txQueue = d.txQueue := by
        simp only [dmaStep, wakeStopped]
        split <;> rfl
      rw [htx]
      exact Nat.le_refl _
  | hw k desc =>
    refine ⟨hringOf _ rfl, ?_⟩
    simp only [dmaStep, Function.update_apply, completes]
    split
    · rename_i hjk
      rw [hjk]
      exact Nat.le_refl _
    · exact Nat.le_refl _

end WakeInv

/-- A queue that is stopped is woken by as many completions as there are
records before it, and one. -/
theorem woken_by {d : EdgxComDma Dev} {ops : List (DmaOp Dev)} (hi : WakeInv nd d)
    (h : Guarded (dmaStep nd) (WakeOk nd) d ops) {dev : Dev} {i : Nat}
    (hcount : (d.txQueue (d.ringOf nd dev i)).pendingDevs.idxOf dev <
      (outs (dmaStep nd) d ops).countP (completes (d.ringOf nd dev i))) :
    ∃ pre suf, ops = pre ++ suf ∧ (after (dmaStep nd) d pre).stopped dev i = false := by
  induction ops generalizing d with
  | nil => exact absurd hcount (Nat.not_lt_zero _)
  | cons op ops ih =>
    by_cases hs : d.stopped dev i = true
    · by_cases hs' : (dmaStep nd d op).2.stopped dev i = true
      · obtain ⟨hring, hpos⟩ := hi.position hs hs'
        rw [outs, List.countP_cons] at hcount
        obtain ⟨pre, suf, rfl, hwoken⟩ := ih (hi.step h.1) h.2 (by rw [hring]; omega)
        exact ⟨op :: pre, suf, rfl, hwoken⟩
      · exact ⟨[op], ops, rfl, by simpa using hs'⟩
    · exact ⟨[], op :: ops, rfl, by simpa using hs⟩

variable (nd) in
/-- **No wake-up is lost**, in every run whose transmissions meet the two
conditions: a queue that is stopped is recorded, its ring has a completion to
come for each record, and it is woken by the time its record's completion has
come. -/
theorem recorded_of_ok (n brpt : Nat) (ts : EdgxComTs (Skb Dev)) (ops : List (DmaOp Dev))
    (h : Guarded (dmaStep nd) (WakeOk nd) { realNumTxQueues := n, qIdxBrpt := brpt, ts } ops) :
    Recorded nd (after (dmaStep nd) { realNumTxQueues := n, qIdxBrpt := brpt, ts } ops) ∧
      ∀ pre suf, ops = pre ++ suf → ∀ dev i,
        let d := after (dmaStep nd) { realNumTxQueues := n, qIdxBrpt := brpt, ts } pre
        (d.txQueue (d.ringOf nd dev i)).pendingDevs.idxOf dev <
          (outs (dmaStep nd) d suf).countP (completes (d.ringOf nd dev i)) →
        ∃ mid rest, suf = mid ++ rest ∧ (after (dmaStep nd) d mid).stopped dev i = false := by
  have hinv : ∀ {ops}, Guarded (dmaStep nd) (WakeOk nd) { realNumTxQueues := n, qIdxBrpt := brpt, ts } ops →
      WakeInv nd (after (dmaStep nd) { realNumTxQueues := n, qIdxBrpt := brpt, ts } ops) := fun h =>
    h.inv_after (WakeInv.init n brpt ts) fun d op hi hok => hi.step hok
  refine ⟨(hinv h).recorded, ?_⟩
  rintro pre suf rfl dev i d hcount
  obtain ⟨hpre, hsuf⟩ := Guarded.append_iff.1 h
  exact woken_by (hinv hpre) hsuf hcount

end Wake

section Example

/-- Device 0 is the end point and the others bridge ports. -/
def threeDevs : NetDevs (Fin 3) where
  edgxDev2ptid := fun i => if i = 0 then none else some (i.castLT (by decide +revert))
  realNumTxQueues := fun _ => 2

def frameOf (dev : Fin 3) : Skb (Fin 3) := ⟨dev, 64, 0, 0x0800, []⟩

/-- A frame that cannot be mapped is recorded while another is in the ring. -/
theorem recorded_of_ok_unmapped :
    Recorded threeDevs (after (dmaStep threeDevs) { realNumTxQueues := 2, qIdxBrpt := 1, ts := fun _ => none }
      [.xmit (frameOf 1) 1 0 {}, .xmit (frameOf 2) 1 0 { physAddr := none }]) :=
  (recorded_of_ok threeDevs 2 1 (fun _ => none) _ (by decide +kernel)).1

/-- A frame that cannot be mapped is refused by an empty ring: its queue is
recorded and no completion is to come. -/
theorem not_recorded_empty_ring :
    ¬ Recorded threeDevs (after (dmaStep threeDevs) { realNumTxQueues := 2, qIdxBrpt := 1, ts := fun _ => none }
      [.xmit (frameOf 1) 1 0 { physAddr := none }]) := by
  intro h
  exact h.nonempty 1 (by decide +kernel) (by decide +kernel)

end Example

end TsnSwitch.Com
