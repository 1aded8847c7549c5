/-
The kernel error numbers the driver returns. A function that can fail
returns an `Int`: 0 for success, or a negated error number.
-/
import Mathlib.Tactic

namespace TsnSwitch

def EPERM : Int := 1
def ENOENT : Int := 2
def EIO : Int := 5
def E2BIG : Int := 7
def ENOMEM : Int := 12
def EACCES : Int := 13
def EFAULT : Int := 14
def EBUSY : Int := 16
def EEXIST : Int := 17
def EINVAL : Int := 22
def EFBIG : Int := 27
def ENOSPC : Int := 28
def ERANGE : Int := 34

end TsnSwitch
