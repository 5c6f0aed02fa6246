/-
# RegisterTransfer.Pic18.Devices -- the built-in device descriptions

* The PIC18F4620, a device of the traditional family: 96 registers and the configuration bytes that
  directives name.
* The PIC18F46K42, a device of the enhanced family: 67 registers.
-/
import RegisterTransfer.Fault
import RegisterTransfer.Pic18.Device

namespace RegisterTransfer.Pic18.Devices

set_option autoImplicit false

namespace Pic18f4620

/-- The registers from the top of data memory down. -/
def upperRegisters : List Register :=
  [.byte "TOSU" 0xFFF [],
    .byte "TOSH" 0xFFE [],
    .byte "TOSL" 0xFFD [],
    .joint "TOS" 0xFFD 24,
    .byte "STKPTR" 0xFFC [.single "STKFUL" 7, .single "STKUNF" 6, ⟨"SP", 0, 5⟩],
    .byte "PCLATU" 0xFFB [],
    .byte "PCLATH" 0xFFA [],
    .byte "PCL" 0xFF9 [],
    .byte "TBLPTRU" 0xFF8 [],
    .byte "TBLPTRH" 0xFF7 [],
    .byte "TBLPTRL" 0xFF6 [],
    .joint "TBLPTR" 0xFF6 24,
    .byte "TABLAT" 0xFF5 [],
    .byte "PRODH" 0xFF4 [],
    .byte "PRODL" 0xFF3 [],
    .joint "PROD" 0xFF3 16,
    .byte "INDF0" 0xFEF [],
    .byte "POSTINC0" 0xFEE [],
    .byte "POSTDEC0" 0xFED [],
    .byte "PREINC0" 0xFEC [],
    .byte "PLUSW0" 0xFEB [],
    .byte "FSR0H" 0xFEA [],
    .byte "FSR0L" 0xFE9 [],
    .joint "FSR0" 0xFE9 16,
    .byte "WREG" 0xFE8 [],
    .byte "INDF1" 0xFE7 [],
    .byte "POSTINC1" 0xFE6 [],
    .byte "POSTDEC1" 0xFE5 [],
    .byte "PREINC1" 0xFE4 [],
    .byte "PLUSW1" 0xFE3 [],
    .byte "FSR1H" 0xFE2 [],
    .byte "FSR1L" 0xFE1 [],
    .joint "FSR1" 0xFE1 16,
    .byte "BSR" 0xFE0 [],
    .byte "INDF2" 0xFDF [],
    .byte "POSTINC2" 0xFDE [],
    .byte "POSTDEC2" 0xFDD [],
    .byte "PREINC2" 0xFDC [],
    .byte "PLUSW2" 0xFDB [],
    .byte "FSR2H" 0xFDA [],
    .byte "FSR2L" 0xFD9 [],
    .joint "FSR2" 0xFD9 16,
    .byte "STATUS" 0xFD8 [
      .single "C" 0, .single "DC" 1, .single "Z" 2, .single "OV" 3, .single "N" 4],
    .byte "INTCON" 0xFF2 [
      .single "RBIF" 0, .single "INT0IF" 1, .single "TMR0IF" 2, .single "RBIE" 3,
      .single "INT0IE" 4, .single "TMR0IE" 5, .single "PEIE" 6, .single "GIE" 7],
    .byte "INTCON2" 0xFF1 [],
    .byte "INTCON3" 0xFF0 [],
    .byte "TMR0H" 0xFD7 [],
    .byte "TMR0L" 0xFD6 []]

/-- The registers below those. -/
def lowerRegisters : List Register :=
  [.byte "T0CON" 0xFD5 [.single "TMR0ON" 7],
    .byte "OSCCON" 0xFD3 [],
    .byte "HLVDCON" 0xFD2 [],
    .byte "WDTCON" 0xFD1 [.single "SWDTEN" 0],
    .byte "RCON" 0xFD0 [
      .single "BOR" 0, .single "POR" 1, .single "PD" 2, .single "TO" 3, .single "RI" 4,
      .single "IPEN" 7],
    .byte "TMR1H" 0xFCF [],
    .byte "TMR1L" 0xFCE [],
    .byte "T1CON" 0xFCD [],
    .byte "TMR2" 0xFCC [],
    .byte "PR2" 0xFCB [],
    .byte "T2CON" 0xFCA [],
    .byte "SSPBUF" 0xFC9 [],
    .byte "SSPADD" 0xFC8 [],
    .byte "SSPSTAT" 0xFC7 [],
    .byte "SSPCON1" 0xFC6 [],
    .byte "SSPCON2" 0xFC5 [],
    .byte "ADRESH" 0xFC4 [],
    .byte "ADRESL" 0xFC3 [],
    .byte "ADCON0" 0xFC2 [.single "ADON" 0, .single "GO" 1],
    .byte "ADCON1" 0xFC1 [],
    .byte "ADCON2" 0xFC0 [],
    .byte "SPBRG" 0xFAF [],
    .byte "RCREG" 0xFAE [],
    .byte "TXREG" 0xFAD [],
    .byte "TXSTA" 0xFAC [],
    .byte "RCSTA" 0xFAB [],
    .byte "EEADR" 0xFA9 [],
    .byte "EEDATA" 0xFA8 [],
    .byte "EECON2" 0xFA7 [],
    .byte "EECON1" 0xFA6 [],
    .byte "IPR1" 0xF9F [],
    .byte "PIR1" 0xF9E [],
    .byte "PIE1" 0xF9D [],
    .byte "TRISE" 0xF96 [],
    .byte "TRISD" 0xF95 [],
    .byte "TRISC" 0xF94 [],
    .byte "TRISB" 0xF93 [],
    .byte "TRISA" 0xF92 [],
    .byte "LATE" 0xF8D [],
    .byte "LATD" 0xF8C [],
    .byte "LATC" 0xF8B [],
    .byte "LATB" 0xF8A [],
    .byte "LATA" 0xF89 [],
    .byte "PORTE" 0xF84 [],
    .byte "PORTD" 0xF83 [],
    .byte "PORTC" 0xF82 [],
    .byte "PORTB" 0xF81 [
      .single "RB0" 0, .single "RB1" 1, .single "RB2" 2, .single "RB3" 3, .single "RB4" 4,
      .single "RB5" 5, .single "RB6" 6, .single "RB7" 7],
    .byte "PORTA" 0xF80 [
      .single "RA0" 0, .single "RA1" 1, .single "RA2" 2, .single "RA3" 3, .single "RA4" 4,
      .single "RA5" 5, .single "RA6" 6, .single "RA7" 7]]

/-- The configuration bytes. -/
def configWords : List ConfigWord :=
  [⟨"CONFIG1H", 0x300001,
      [⟨"FOSC", 0, 4, [
        ⟨"LP", 0⟩, ⟨"XT", 1⟩, ⟨"HS", 2⟩, ⟨"RC", 3⟩, ⟨"EC", 4⟩, ⟨"ECIO6", 5⟩,
        ⟨"HSPLL", 6⟩, ⟨"RCIO6", 7⟩, ⟨"INTIO67", 8⟩, ⟨"INTIO7", 9⟩]⟩,
      .switch "FCMEN" 6 1,
      .switch "IESO" 7 1]⟩,
    ⟨"CONFIG2L", 0x300002,
      [.switch "PWRT" 0 0,
      ⟨"BOREN", 1, 2, [
        ⟨"OFF", 0⟩, ⟨"ON", 1⟩, ⟨"NOSLP", 2⟩, ⟨"SBORDIS", 3⟩]⟩,
      ⟨"BORV", 3, 2, []⟩]⟩,
    ⟨"CONFIG2H", 0x300003,
      [.switch "WDT" 0 1,
      ⟨"WDTPS", 1, 4, []⟩]⟩,
    ⟨"CONFIG4L", 0x300006,
      [.switch "STVREN" 0 1,
      .switch "LVP" 2 1,
      .switch "XINST" 6 1]⟩]

/-- The description of the device. -/
def device : Device where
  name := "PIC18F4620"
  family := .traditional
  accessSplit := 0x80
  sfrWindow := 0xF00
  dataAddressBits := 12
  registers := upperRegisters ++ lowerRegisters
  configWords := configWords

end Pic18f4620

namespace Pic18f46k42

/-- The registers from the top of data memory down. -/
def upperRegisters : List Register :=
  [.byte "TOSU" 0x3FFF [],
    .byte "TOSH" 0x3FFE [],
    .byte "TOSL" 0x3FFD [],
    .joint "TOS" 0x3FFD 24,
    .byte "STKPTR" 0x3FFC [.single "STKFUL" 7, .single "STKUNF" 6, ⟨"SP", 0, 5⟩],
    .byte "PCLATU" 0x3FFB [],
    .byte "PCLATH" 0x3FFA [],
    .byte "PCL" 0x3FF9 [],
    .byte "TBLPTRU" 0x3FF8 [],
    .byte "TBLPTRH" 0x3FF7 [],
    .byte "TBLPTRL" 0x3FF6 [],
    .joint "TBLPTR" 0x3FF6 24,
    .byte "TABLAT" 0x3FF5 [],
    .byte "PRODH" 0x3FF4 [],
    .byte "PRODL" 0x3FF3 [],
    .joint "PROD" 0x3FF3 16,
    .byte "INDF0" 0x3FEF [],
    .byte "POSTINC0" 0x3FEE [],
    .byte "POSTDEC0" 0x3FED [],
    .byte "PREINC0" 0x3FEC [],
    .byte "PLUSW0" 0x3FEB [],
    .byte "FSR0H" 0x3FEA [],
    .byte "FSR0L" 0x3FE9 [],
    .joint "FSR0" 0x3FE9 16,
    .byte "WREG" 0x3FE8 [],
    .byte "INDF1" 0x3FE7 [],
    .byte "POSTINC1" 0x3FE6 [],
    .byte "POSTDEC1" 0x3FE5 [],
    .byte "PREINC1" 0x3FE4 [],
    .byte "PLUSW1" 0x3FE3 [],
    .byte "FSR1H" 0x3FE2 [],
    .byte "FSR1L" 0x3FE1 [],
    .joint "FSR1" 0x3FE1 16,
    .byte "BSR" 0x3FE0 [],
    .byte "INDF2" 0x3FDF [],
    .byte "POSTINC2" 0x3FDE [],
    .byte "POSTDEC2" 0x3FDD [],
    .byte "PREINC2" 0x3FDC [],
    .byte "PLUSW2" 0x3FDB [],
    .byte "FSR2H" 0x3FDA [],
    .byte "FSR2L" 0x3FD9 [],
    .joint "FSR2" 0x3FD9 16,
    .byte "STATUS" 0x3FD8 [
      .single "C" 0, .single "DC" 1, .single "Z" 2, .single "OV" 3, .single "N" 4],
    .byte "INTCON0" 0x3FD2 [.single "GIEL" 6, .single "GIE" 7, .single "IPEN" 5],
    .byte "INTCON1" 0x3FD3 [],
    .byte "PCON0" 0x3FD4 [],
    .byte "PCON1" 0x3FD5 [],
    .byte "PORTA" 0x3FCA [
      .single "RA0" 0, .single "RA1" 1, .single "RA2" 2, .single "RA3" 3, .single "RA4" 4,
      .single "RA5" 5, .single "RA6" 6, .single "RA7" 7]]

/-- The registers below those. -/
def lowerRegisters : List Register :=
  [.byte "PORTB" 0x3FCB [
      .single "RB0" 0, .single "RB1" 1, .single "RB2" 2, .single "RB3" 3, .single "RB4" 4,
      .single "RB5" 5, .single "RB6" 6, .single "RB7" 7],
    .byte "PORTC" 0x3FCC [],
    .byte "PORTD" 0x3FCD [],
    .byte "PORTE" 0x3FCE [],
    .byte "TRISA" 0x3FC2 [],
    .byte "TRISB" 0x3FC3 [],
    .byte "TRISC" 0x3FC4 [],
    .byte "TRISD" 0x3FC5 [],
    .byte "TRISE" 0x3FC6 [],
    .byte "LATA" 0x3FBA [],
    .byte "LATB" 0x3FBB [],
    .byte "LATC" 0x3FBC [],
    .byte "LATD" 0x3FBD [],
    .byte "LATE" 0x3FBE [],
    .byte "NVMADRL" 0x3F9A [],
    .byte "NVMADRH" 0x3F9B [],
    .byte "NVMDAT" 0x3F9C [],
    .byte "NVMCON1" 0x3F9D [],
    .byte "NVMCON2" 0x3F9E []]

/-- The description of the device. -/
def device : Device where
  name := "PIC18F46K42"
  family := .enhanced
  accessSplit := 0x60
  sfrWindow := 0x3F00
  dataAddressBits := 14
  registers := upperRegisters ++ lowerRegisters

end Pic18f46k42

/-- The built-in descriptions, each with the name it is asked for by. -/
def builtin : List (String × Device) :=
  [("pic18f4620", Pic18f4620.device), ("pic18f46k42", Pic18f46k42.device)]

def names : List String := builtin.map (·.1)

/-- The built-in description of a name, in either case. -/
def named (name : String) : Except Fault Device :=
  match builtin.lookup name.toLower with
  | some d => .ok d
  | none => .error (.device (.unknownDevice name))

end RegisterTransfer.Pic18.Devices
