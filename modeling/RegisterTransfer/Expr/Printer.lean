/-
# RegisterTransfer.Expr.Printer -- the text of an expression

Operators stand infix between operands, an operand that is itself an operation or a cast stands in
parentheses, and memory, concatenation, slices, tests and applications have forms of their own.
-/
import RegisterTransfer.Expr

namespace RegisterTransfer

set_option autoImplicit false

/-- A text in parentheses if `nested`. -/
def parenthesized (nested : Bool) (s : String) : String :=
  if nested then "(" ++ s ++ ")" else s

namespace Expr

mutual

/-- The text of an expression. -/
def text : Expr → String
  | identifier id => id.name
  | constant c => c.text
  | address a => Numeral.hexUpper 8 a
  | binary op _ l r =>
      parenthesized l.isCompound (text l) ++ " " ++ op.symbol ++ " "
        ++ parenthesized r.isCompound (text r)
  | unary op _ e => op.symbol ++ parenthesized e.isCompound (text e)
  | memory t ea => "Mem[" ++ text ea ++ ":" ++ t.name ++ "]"
  | segmented t s ea => "Mem[" ++ text s ++ ":" ++ text ea ++ ":" ++ t.name ++ "]"
  | concat _ h l => "SEQ(" ++ text h ++ ", " ++ text l ++ ")"
  | slice t e offset =>
      "SLICE(" ++ text e ++ ", " ++ t.name ++ ", " ++ Numeral.decimal offset ++ ")"
  | cast t e => "(" ++ t.name ++ ") " ++ parenthesized e.isCompound (text e)
  | conditionCodes e => "cond(" ++ text e ++ ")"
  | test c e => "Test(" ++ c.name ++ "," ++ text e ++ ")"
  | apply p _ arguments => p.name ++ "(" ++ ", ".intercalate (texts arguments) ++ ")"

/-- The texts of several expressions. -/
def texts : List Expr → List String
  | [] => []
  | e :: rest => text e :: texts rest

end

mutual

/-- The text shows the name of an intrinsic and nothing else of it. -/
theorem text_mapIntrinsics (f : Intrinsic → Intrinsic) (h : ∀ p, (f p).name = p.name) :
    ∀ e : Expr, (e.mapIntrinsics f).text = e.text
  | identifier _ | constant _ | address _ => by simp [mapIntrinsics]
  | binary _ _ l r => by
      simp [mapIntrinsics, text, isCompound_mapIntrinsics, text_mapIntrinsics f h l,
        text_mapIntrinsics f h r]
  | unary _ _ e | cast _ e => by
      simp [mapIntrinsics, text, isCompound_mapIntrinsics, text_mapIntrinsics f h e]
  | memory _ e | slice _ e _ | conditionCodes e | test _ e => by
      simp [mapIntrinsics, text, text_mapIntrinsics f h e]
  | segmented _ a b | concat _ a b => by
      simp [mapIntrinsics, text, text_mapIntrinsics f h a, text_mapIntrinsics f h b]
  | apply p _ arguments => by
      simp [mapIntrinsics, text, h p, texts_mapIntrinsicsList f h arguments]

theorem texts_mapIntrinsicsList (f : Intrinsic → Intrinsic) (h : ∀ p, (f p).name = p.name) :
    ∀ es : List Expr, texts (mapIntrinsicsList f es) = texts es
  | [] => by simp [mapIntrinsicsList]
  | e :: rest => by
      simp [mapIntrinsicsList, texts, text_mapIntrinsics f h e, texts_mapIntrinsicsList f h rest]

end

end Expr

end RegisterTransfer
