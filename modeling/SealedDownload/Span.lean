import SealedDownload.Decimal.Shortest

/-! Spans of time, counted in nanoseconds. A span is shorter than `2 ^ 64` seconds. -/

namespace SealedDownload

/-- A span of time. -/
structure Span where
  nanos : Nat
  nanos_lt : nanos < UInt64.size * 1000000000
deriving DecidableEq

namespace Span

/-- The span of no length. -/
def zero : Span := ⟨0, by decide⟩

/-- The longest span. -/
def longest : Span := ⟨UInt64.size * 1000000000 - 1, by decide⟩

instance : Inhabited Span := ⟨zero⟩

/-- The span of that many nanoseconds, or the longest one. -/
def ofNanos (n : Nat) : Span :=
  if h : n < UInt64.size * 1000000000 then ⟨n, h⟩ else longest

/-- The span of that many milliseconds, or the longest one. -/
def ofMillis (ms : Nat) : Span := ofNanos (ms * 1000000)

/-- The shorter of two spans. -/
def min (a b : Span) : Span := if a.nanos ≤ b.nanos then a else b

/-- Complete milliseconds. -/
def millis (s : Span) : Nat := s.nanos / 1000000

/-- Complete milliseconds as a 64-bit word, its higher bits dropped. -/
def millisWord (s : Span) : UInt64 := UInt64.ofNat s.millis

/-- Milliseconds, a part of one counted as a whole. -/
def ceilMillis (s : Span) : Nat := (s.nanos + 999999) / 1000000

/-- The span in seconds: the whole seconds plus the rest, each rounded to a double. -/
def seconds (s : Span) : Float :=
  (UInt64.ofNat (s.nanos / 1000000000)).toFloat + (UInt64.ofNat (s.nanos % 1000000000)).toFloat / 1e9

/-- The quotient rounded to the nearest integer, a tie to the even one. -/
def roundDiv (num den : Nat) : Nat :=
  let down := num / den
  let rest := 2 * (num % den)
  if rest < den then down
  else if den < rest then down + 1
  else if down % 2 = 0 then down else down + 1

/-- The span nearest to a number of seconds; none for a negative one and from `2 ^ 64` on. -/
def ofSeconds? (x : Float) : Option Span :=
  if x.isNaN || x < 0 then none
  else match Decimal.Magnitude.ofBits? x.toBits with
    | none => if x.isInf then none else some zero
    | some m =>
      let r := m.value
      let nanos := roundDiv (r.num * 1000000000) r.den
      if h : nanos < UInt64.size * 1000000000 then some ⟨nanos, h⟩ else none

end Span
end SealedDownload
