/-
The config-change reset helper of the sysrepo plugins (config_change.c).

A subscription collects the leaves that are to be reset to false in a list and
hands the list to a helper thread. Queue and user count are only used with the
helper's lock held, so one step of the model is what one thread does between
taking the lock and giving it back: by `pthread_cond_wait`, by returning, or to
process a list. A signal wakes a thread that waits, and is lost if none does.
-/
import Mathlib.Data.BitVec
import TsnSwitch.Lib.Run

namespace TsnSwitch.Sysrepo

open Lib

inductive SrError where
  | ok
  | nomem
  | operationFailed
  | callbackFailed
  /-- Any other error of a library call. -/
  | other
  deriving DecidableEq

structure Reset where
  xpath : String
  value : Bool
  deriving DecidableEq

abbrev ResetList := List Reset

/-! ## Lists -/

def configChangeListPush (list : ResetList) (xpath : String) (value allocOk : Bool) : SrError × ResetList :=
  if allocOk then (.ok, list ++ [⟨xpath, value⟩]) else (.nomem, list)

def configChangeListExists (list : ResetList) (xpath : String) : Bool := list.any fun item => item.xpath == xpath

def configChangeListClear (_ : ResetList) : ResetList := []

/-- The lists that are worth queueing. -/
def triggerAny (list : ResetList) : Bool := list.any Reset.value

/-! ## The helper -/

/-- Where a helper thread is. One that was never created counts as ended. -/
inductive Pc where
  /-- It has not taken the lock yet. -/
  | created
  /-- It is blocked on the condition variable. -/
  | waiting
  /-- It has been signalled and has yet to take the lock again. -/
  | woken
  /-- It processes a list, with the lock released. -/
  | processing (list : ResetList)
  | ended
  deriving DecidableEq

/-- Where a stop is that has signalled the thread. -/
inductive StopPc where
  /-- It has given the lock back and has yet to read `helper->thread`. -/
  | signalled
  | joining (t : Nat)
  | returned
  deriving DecidableEq

/-- Threads are numbered in the order of their creation, so `thread` is the last
one that was created. `pushed` and `popped` record what went through the queue. -/
structure Helper where
  threads : Nat → Pc := fun _ => .ended
  thread : Nat := 0
  users : BitVec 32 := 0
  queue : List ResetList := []
  stops : List StopPc := []
  pushed : List ResetList := []
  popped : List ResetList := []

def Helper.setPc (s : Helper) (t : Nat) (pc : Pc) : Helper := { s with threads := Function.update s.threads t pc }

/-- `pthread_cond_signal`: one of the waiting threads is woken, `w` if it is one. -/
def condSignal (s : Helper) (w : Nat) : Helper :=
  match (w :: List.range (s.thread + 1)).find? fun t => s.threads t = .waiting with
  | some t => s.setPc t .woken
  | none => s

def configChangeQueuePush (s : Helper) (list : ResetList) (allocOk : Bool) : SrError × Helper × ResetList :=
  if allocOk then (.ok, { s with queue := s.queue ++ [list], pushed := s.pushed ++ [list] }, [])
  else (.nomem, s, list)

def configChangeQueuePop (s : Helper) : Option ResetList × Helper :=
  match s.queue with
  | [] => (none, s)
  | item :: queue => (some item, { s with queue, popped := s.popped ++ [item] })

def configChangeQueueClear (s : Helper) : Helper := { s with queue := [], popped := s.popped ++ s.queue }

/-- The list that is left with the caller, and the helper. -/
def configChangeListEnqueue (s : Helper) (list : ResetList) (allocOk : Bool) (w : Nat) : ResetList × Helper :=
  if list.isEmpty then (list, s)
  else if !triggerAny list then (configChangeListClear list, s)
  else
    match configChangeQueuePush s list allocOk with
    | (.ok, s, list) => (list, condSignal s w)
    | (_, s, list) => (list, s)

/-- The head of the loop over the queue. When it is empty the thread goes back
to `pthread_cond_wait`. -/
def configChangeProcess (s : Helper) (t : Nat) : Helper :=
  match configChangeQueuePop s with
  | (some list, s) => s.setPc t (.processing list)
  | (none, s) => s.setPc t .waiting

/-- A helper thread runs until it gives the lock back. -/
def configChangeHelperThread (s : Helper) (t : Nat) : Helper :=
  match s.threads t with
  | .created => s.setPc t .waiting
  | .waiting => s
  | .woken =>
    if s.users = 0 then (configChangeQueueClear s).setPc t .ended
    else if s.queue.isEmpty then s.setPc t .waiting
    else configChangeProcess s t
  | .processing _ => configChangeProcess s t
  | .ended => s

/-- `ok` says whether the connection, the session and the thread are made. -/
def configChangeHelperStart (s : Helper) (ok : Bool) : Helper :=
  if 0 < s.users then { s with users := s.users + 1 }
  else if ok then
    { s with
      users := s.users + 1
      thread := s.thread + 1
      threads := Function.update s.threads (s.thread + 1) .created }
  else s

def configChangeHelperStop (s : Helper) (w : Nat) : Helper :=
  if s.users = 0 then s
  else if 0 < s.users - 1 then { s with users := s.users - 1 }
  else
    let s := condSignal { s with users := s.users - 1 } w
    { s with stops := s.stops ++ [.signalled] }

/-- The end of a stop: it reads `helper->thread` and waits until that thread has
ended. -/
def pthreadJoin (s : Helper) (k : Nat) : Helper :=
  match s.stops[k]? with
  | some .signalled => { s with stops := s.stops.set k (.joining s.thread) }
  | some (.joining t) => if s.threads t = .ended then { s with stops := s.stops.set k .returned } else s
  | _ => s

inductive Op where
  | start (ok : Bool)
  | stop (w : Nat)
  | enqueue (list : ResetList) (allocOk : Bool) (w : Nat)
  | thread (t : Nat)
  /-- `pthread_cond_wait` returns without a signal. -/
  | wakeup (t : Nat)
  | join (k : Nat)

def step (s : Helper) : Op → Unit × Helper
  | .start ok => ((), configChangeHelperStart s ok)
  | .stop w => ((), configChangeHelperStop s w)
  | .enqueue list allocOk w => ((), (configChangeListEnqueue s list allocOk w).2)
  | .thread t => ((), configChangeHelperThread s t)
  | .wakeup t => ((), if s.threads t = .waiting then s.setPc t .woken else s)
  | .join k => ((), pthreadJoin s k)

/-- A step of a helper thread, or of a stop that has signalled. -/
def Op.isInternal : Op → Bool
  | .thread _ => true
  | .wakeup _ => true
  | .join _ => true
  | _ => false

end TsnSwitch.Sysrepo
