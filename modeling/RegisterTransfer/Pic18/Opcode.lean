/-
# RegisterTransfer.Pic18.Opcode -- PIC18 mnemonics

The instructions of both families, the data directives, and the marker for words that are no
instruction.  `ofName?` reads a mnemonic in either case; the marker is not a mnemonic.
-/
namespace RegisterTransfer.Pic18

set_option autoImplicit false

/-- An instruction or data directive. -/
inductive Opcode where
  -- bytes of a file register
  | addwf | addwfc | andwf | clrf | comf | cpfseq | cpfsgt | cpfslt | decf | decfsz | dcfsnz
  | incf | incfsz | infsnz | iorwf | movf | movff | movwf | mulwf | negf | rlcf | rlncf | rrcf
  | rrncf | setf | subfwb | subwf | subwfb | swapf | tstfsz | xorwf
  -- bits of a file register
  | bcf | bsf | btfsc | btfss | btg
  -- control
  | bc | bn | bnc | bnn | bnov | bnz | bov | bra | bz | call | clrwdt | daw | goto | nop | pop
  | push | rcall | reset | retfie | retlw | ret | sleep
  -- literals
  | addlw | andlw | iorlw | lfsr | movlb | movlw | mullw | sublw | xorlw
  -- tables in program memory
  | tblrd | tblwt
  -- extended mode
  | addfsr | addulnk | callw | movsf | movss | pushl | subfsr | subulnk
  -- enhanced family
  | movffl | movsfl
  -- data directives
  | db | dw | de | ascii | idlocs | config
  /-- A word that is no instruction. -/
  | invalid
deriving DecidableEq

namespace Opcode

/-- The instructions and directives. -/
def mnemonics : List Opcode :=
  [addwf, addwfc, andwf, clrf, comf, cpfseq, cpfsgt, cpfslt, decf, decfsz, dcfsnz, incf, incfsz,
    infsnz, iorwf, movf, movff, movwf, mulwf, negf, rlcf, rlncf, rrcf, rrncf, setf, subfwb, subwf,
    subwfb, swapf, tstfsz, xorwf, bcf, bsf, btfsc, btfss, btg, bc, bn, bnc, bnn, bnov, bnz, bov,
    bra, bz, call, clrwdt, daw, goto, nop, pop, push, rcall, reset, retfie, retlw, ret, sleep,
    addlw, andlw, iorlw, lfsr, movlb, movlw, mullw, sublw, xorlw, tblrd, tblwt, addfsr, addulnk,
    callw, movsf, movss, pushl, subfsr, subulnk, movffl, movsfl, db, dw, de, ascii, idlocs,
    config]

/-- The mnemonic as assembly text shows it. -/
def name : Opcode → String
  | addwf => "ADDWF"
  | addwfc => "ADDWFC"
  | andwf => "ANDWF"
  | clrf => "CLRF"
  | comf => "COMF"
  | cpfseq => "CPFSEQ"
  | cpfsgt => "CPFSGT"
  | cpfslt => "CPFSLT"
  | decf => "DECF"
  | decfsz => "DECFSZ"
  | dcfsnz => "DCFSNZ"
  | incf => "INCF"
  | incfsz => "INCFSZ"
  | infsnz => "INFSNZ"
  | iorwf => "IORWF"
  | movf => "MOVF"
  | movff => "MOVFF"
  | movwf => "MOVWF"
  | mulwf => "MULWF"
  | negf => "NEGF"
  | rlcf => "RLCF"
  | rlncf => "RLNCF"
  | rrcf => "RRCF"
  | rrncf => "RRNCF"
  | setf => "SETF"
  | subfwb => "SUBFWB"
  | subwf => "SUBWF"
  | subwfb => "SUBWFB"
  | swapf => "SWAPF"
  | tstfsz => "TSTFSZ"
  | xorwf => "XORWF"
  | bcf => "BCF"
  | bsf => "BSF"
  | btfsc => "BTFSC"
  | btfss => "BTFSS"
  | btg => "BTG"
  | bc => "BC"
  | bn => "BN"
  | bnc => "BNC"
  | bnn => "BNN"
  | bnov => "BNOV"
  | bnz => "BNZ"
  | bov => "BOV"
  | bra => "BRA"
  | bz => "BZ"
  | call => "CALL"
  | clrwdt => "CLRWDT"
  | daw => "DAW"
  | goto => "GOTO"
  | nop => "NOP"
  | pop => "POP"
  | push => "PUSH"
  | rcall => "RCALL"
  | reset => "RESET"
  | retfie => "RETFIE"
  | retlw => "RETLW"
  | ret => "RETURN"
  | sleep => "SLEEP"
  | addlw => "ADDLW"
  | andlw => "ANDLW"
  | iorlw => "IORLW"
  | lfsr => "LFSR"
  | movlb => "MOVLB"
  | movlw => "MOVLW"
  | mullw => "MULLW"
  | sublw => "SUBLW"
  | xorlw => "XORLW"
  | tblrd => "TBLRD"
  | tblwt => "TBLWT"
  | addfsr => "ADDFSR"
  | addulnk => "ADDULNK"
  | callw => "CALLW"
  | movsf => "MOVSF"
  | movss => "MOVSS"
  | pushl => "PUSHL"
  | subfsr => "SUBFSR"
  | subulnk => "SUBULNK"
  | movffl => "MOVFFL"
  | movsfl => "MOVSFL"
  | db => "DB"
  | dw => "DW"
  | de => "DE"
  | ascii => "ASCII"
  | idlocs => "__IDLOCS"
  | config => "CONFIG"
  | invalid => "invalid"

/-- The instruction or directive of a mnemonic, in either case. -/
def ofName? (s : String) : Option Opcode := mnemonics.find? (·.name == s.toUpper)

/-- Whether an instruction skips the next one when its test holds. -/
def isSkip : Opcode → Bool
  | cpfseq | cpfsgt | cpfslt | tstfsz | decfsz | dcfsnz | incfsz | infsnz | btfsc | btfss => true
  | _ => false

/-- Whether it is a directive, which takes up program memory and is not executed. -/
def isDirective : Opcode → Bool
  | db | dw | de | ascii | idlocs | config => true
  | _ => false

end Opcode

end RegisterTransfer.Pic18
