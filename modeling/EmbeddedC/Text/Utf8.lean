/-!
# UTF-8

Text crosses the C boundary as bytes. Encoding is total; decoding meets bytes that are no text,
and cuts them into maximal pieces: a scalar value, or a sequence that stopped being continuable.
`lossy` shows each broken piece as one replacement character, `decode?` refuses it.
-/

namespace EmbeddedC.Text.Utf8

def encode (s : String) : List UInt8 :=
  s.toList.flatMap String.utf8EncodeChar

inductive Piece where
  | scalar (c : Char)
  | broken (bytes : List UInt8)
  deriving DecidableEq, Repr

/-- A sequence under way: its bytes so far and their value, how many bytes are still owed, and the
range the next one must lie in. Only the first continuation byte is restricted, so that no scalar
value has a longer spelling and no surrogate has any. -/
structure Pending where
  seen : List UInt8
  value : Nat
  owed : Nat
  low : UInt8 := 0x80
  high : UInt8 := 0xBF
  deriving DecidableEq, Repr

/-- The sequence that a leading byte opens. -/
def Pending.ofLead? (b : UInt8) : Option Pending :=
  if 0xC2 ≤ b ∧ b ≤ 0xDF then some ⟨[b], b.toNat - 0xC0, 1, 0x80, 0xBF⟩
  else if b = 0xE0 then some ⟨[b], 0, 2, 0xA0, 0xBF⟩
  else if b = 0xED then some ⟨[b], 0xD, 2, 0x80, 0x9F⟩
  else if 0xE1 ≤ b ∧ b ≤ 0xEF then some ⟨[b], b.toNat - 0xE0, 2, 0x80, 0xBF⟩
  else if b = 0xF0 then some ⟨[b], 0, 3, 0x90, 0xBF⟩
  else if 0xF1 ≤ b ∧ b ≤ 0xF3 then some ⟨[b], b.toNat - 0xF0, 3, 0x80, 0xBF⟩
  else if b = 0xF4 then some ⟨[b], 4, 3, 0x80, 0x8F⟩
  else none

/-- A byte where a sequence may start: what it completes, and what it opens. -/
def start (b : UInt8) : List Piece × Option Pending :=
  if b < 0x80 then ([.scalar (Char.ofNat b.toNat)], none)
  else match Pending.ofLead? b with
    | some p => ([], some p)
    | none => ([.broken [b]], none)

/-- One byte. A byte that cannot continue the sequence under way breaks it and starts afresh. -/
def step (pending : Option Pending) (b : UInt8) : List Piece × Option Pending :=
  match pending with
  | none => start b
  | some p =>
    if p.low ≤ b ∧ b ≤ p.high then
      let value := p.value * 64 + (b.toNat - 0x80)
      if p.owed ≤ 1 then ([.scalar (Char.ofNat value)], none)
      else ([], some ⟨p.seen ++ [b], value, p.owed - 1, 0x80, 0xBF⟩)
    else
      let (made, next) := start b
      (.broken p.seen :: made, next)

def piecesFrom : Option Pending → List UInt8 → List Piece
  | none, [] => []
  | some p, [] => [.broken p.seen]
  | pending, b :: rest =>
    let (made, next) := step pending b
    made ++ piecesFrom next rest

def pieces (bytes : List UInt8) : List Piece :=
  piecesFrom none bytes

def Piece.shown : Piece → Char
  | .scalar c => c
  | .broken _ => '\uFFFD'

def Piece.scalar? : Piece → Option Char
  | .scalar c => some c
  | .broken _ => none

/-- The text with one replacement character for each broken piece. -/
def lossy (bytes : List UInt8) : String :=
  String.ofList ((pieces bytes).map Piece.shown)

/-- The text, if the bytes are well formed throughout. -/
def decode? (bytes : List UInt8) : Option String :=
  ((pieces bytes).mapM Piece.scalar?).map String.ofList

end EmbeddedC.Text.Utf8
