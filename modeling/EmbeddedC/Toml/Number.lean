import EmbeddedC.Toml.Node
import EmbeddedC.Toml.Quotation

/-!
# Numbers

Integers fit 64 signed bits; underscores may stand between their digits, and only an unsigned one may
name a base. A floating-point number has a fraction or an exponent, and a positive one must be
finite.
-/

namespace EmbeddedC.Toml.Number

open Reader

/-- Digits with single underscores between them. -/
private def digits (p : Char → Bool) : Reader (List Char) := do
  let first ← satisfying p
  let rest ← many (satisfying p <|> (do char '_'; satisfying p))
  pure (first :: rest)

private def sign? : Reader (Option Char) :=
  maybe (satisfying fun c => c == '+' || c == '-')

/-- No digit may follow a leading zero. -/
private def decimalDigits : Reader (List Char) := do
  match ← peek? with
  | some '0' => do char '0'; pure ['0']
  | _ => digits Char.isDigit

/-- An integer that fits. -/
private def bounded (value : Int) : Reader Scalar :=
  if Int64.minValue.toInt ≤ value ∧ value ≤ Int64.maxValue.toInt then pure (.integer value)
  else refuse

private def based (mark : String) (base : Nat) (p : Char → Bool) : Reader Scalar := do
  word mark
  bounded (digitsValue base (← digits p))

private def decimal : Reader Scalar := do
  let negative := (← sign?) == some '-'
  let magnitude : Int := digitsValue 10 (← decimalDigits)
  bounded (if negative then -magnitude else magnitude)

def integer : Reader Scalar :=
  based "0x" 16 isHexDigit <|> based "0o" 8 (fun c => '0' ≤ c && c ≤ '7') <|>
    based "0b" 2 (fun c => c == '0' || c == '1') <|> decimal

/-- Halfway between the largest double and the power of two after it; it rounds to infinity. -/
private def overflowBound : Nat := 1 <<< 1024 - 1 <<< 970

/-- Whether `mantissa · 10 ^ exponent`, rounded to a double, is infinite. The lengths decide unless
they come close. -/
private def overflows (mantissa : Nat) (exponent : Int) : Bool :=
  if mantissa = 0 then false
  else
    let size : Int := (Nat.toDigits 10 mantissa).length + exponent
    if size > 320 then true
    else if size < 300 then false
    else if exponent ≥ 0 then mantissa * Nat.pow 10 exponent.toNat ≥ overflowBound
    else mantissa ≥ overflowBound * Nat.pow 10 (-exponent).toNat

private def fraction : Reader (List Char) := do
  char '.'
  digits Char.isDigit

private def exponent : Reader Int := do
  let _ ← satisfying fun c => c == 'e' || c == 'E'
  let negative := (← sign?) == some '-'
  let magnitude : Int := digitsValue 10 (← digits Char.isDigit)
  pure (if negative then -magnitude else magnitude)

private def decimalFloat : Reader Scalar := do
  let negative := (← sign?) == some '-'
  let whole ← decimalDigits
  let frac? ← maybe fraction
  let exp? ← maybe exponent
  if frac?.isNone && exp?.isNone then refuse
  else
    let frac := frac?.getD []
    if !negative && overflows (digitsValue 10 (whole ++ frac)) (exp?.getD 0 - frac.length) then
      refuse
    else pure .float

private def namedFloat : Reader Scalar := do
  let _ ← sign?
  word "inf" <|> word "nan"
  pure .float

def float : Reader Scalar :=
  decimalFloat <|> namedFloat

end EmbeddedC.Toml.Number
