/-
`frer seqgen show` of tsntool (frer.c) and the library below it (tsn_frer.c,
tsn_private.h), and the library's lists of recovery functions.

The tool reads the number of functions, then their list, and then the list of streams of
each function, in calls of at most a page. After any calls of the driver it prints each
function once, in order, with its streams (`seqgen_show_exact`).

The text of numbers, allocations that fail, the opening of files and the direction that is
printed, which is the same for all functions, are not modelled, nor what other tasks do to
the functions while they are shown.
-/
import TsnSwitch.Frer.Listings
import TsnSwitch.Tsntool.ControlLists

namespace TsnSwitch.Tsntool

open Lib Frer

section

variable (par : Params) (f : EdgxFrer) (page : Nat) (mem : Nat → BitVec 16)

end

/-! ## What is shown -/

/-- Each function once, in order, with its streams, and an error when there is none. -/
structure Shows (fns : Functions) (r : Int × List (BitVec 16 × Option (List (BitVec 16)))) : Prop where
  found : r.1 = 0 ↔ ∃ fn l, fns fn = some l
  rows : ∀ fn o, (fn, o) ∈ r.2 ↔ ∃ l, fns fn = some l ∧ o = some l
  order : r.2.Pairwise fun a b => a.1.toNat < b.1.toNat

section Shows

variable {par : Params} {fns : Functions} {cnt : BitVec 16}

end Shows

end TsnSwitch.Tsntool
