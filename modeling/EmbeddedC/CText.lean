import EmbeddedC.Text.Utf8

/-!
# Text for C

A C string ends at its first NUL, so only bytes free of NUL cross the boundary unaltered. Every
text handed to the compiler has this type; building one is where a NUL is refused.
-/

namespace EmbeddedC

structure CText where
  bytes : List UInt8
  no_nul : (0 : UInt8) ∉ bytes
  deriving DecidableEq

namespace CText

def ofBytes? (bytes : List UInt8) : Option CText :=
  if h : (0 : UInt8) ∉ bytes then some ⟨bytes, h⟩ else none

def ofString? (s : String) : Option CText :=
  ofBytes? (Text.Utf8.encode s)

/-- What a reader of a C string sees of `bytes`: all that comes before the first NUL. -/
def upToNul (bytes : List UInt8) : CText :=
  ⟨bytes.takeWhile (· ≠ 0), fun h => by simpa using List.all_eq_true.1 List.all_takeWhile 0 h⟩

def text (t : CText) : String :=
  Text.Utf8.lossy t.bytes

instance : Inhabited CText := ⟨⟨[], by simp⟩⟩

instance : Repr CText := ⟨fun t _ => repr t.text⟩

theorem ofBytes?_eq_some_iff {bytes : List UInt8} {t : CText} :
    ofBytes? bytes = some t ↔ bytes = t.bytes := by
  constructor
  · intro h
    by_cases hb : (0 : UInt8) ∉ bytes
    · rw [ofBytes?, dif_pos hb] at h
      exact congrArg CText.bytes (Option.some.inj h)
    · rw [ofBytes?, dif_neg hb] at h
      exact absurd h nofun
  · rintro rfl
    exact dif_pos t.no_nul

theorem ofBytes?_eq_none_iff {bytes : List UInt8} :
    ofBytes? bytes = none ↔ (0 : UInt8) ∈ bytes := by
  by_cases hb : (0 : UInt8) ∈ bytes <;> simp [ofBytes?, hb]

end CText

end EmbeddedC
