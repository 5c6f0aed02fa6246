/-
# RegisterTransfer.Intrinsic.Names -- the intrinsics that back-ends use

Names for the computations that the operators of the language do not cover.
-/
namespace RegisterTransfer.IntrinsicName

set_option autoImplicit false

/-! ## Decimal adjustment -/

def daw : String := "__daw"
def aaa : String := "__aaa"
def aam : String := "__aam"
def daa : String := "__daa"
def das : String := "__das"

/-! ## Rotations and bit operations -/

def rlcf : String := "__rlcf"
def rrcf : String := "__rrcf"
def rol : String := "__rol"
def ror : String := "__ror"
def rcl : String := "__rcl"
def rcr : String := "__rcr"
def swapf : String := "__swapf"
def shld : String := "__shld"
def shrd : String := "__shrd"
def bsr : String := "__bsr"
def bswap : String := "__bswap"
def bt : String := "__bt"
def arpl : String := "__arpl"

/-! ## Machine control, ports and program memory -/

def sleep : String := "__sleep"
def clrwdt : String := "__clrwdt"
def reset : String := "__reset"
def tblrd : String := "__tblrd"
def tblwt : String := "__tblwt"
def cli : String := "__cli"
def sti : String := "__sti"
def hlt : String := "__hlt"
def syscall : String := "__syscall"
def portIn : String := "__in"
def portOut : String := "__out"

/-! ## Real functions and the floating-point unit -/

def sin : String := "sin"
def cos : String := "cos"
def sqrt : String := "sqrt"
def atan : String := "atan"
def lg2 : String := "lg2"
def rndint : String := "__rndint"
def fxam : String := "__fxam"
def fclex : String := "__fclex"

end RegisterTransfer.IntrinsicName
