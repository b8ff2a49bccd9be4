/-!
Instants and durations in nanoseconds.

An `Instant` lies within the range of a signed 64-bit count of seconds around the Unix epoch, so
`Instant.after?` and `Instant.ofUnix?` may fail. A duration is a `Nat`; `durationText` shows it in
the largest unit that leaves something before the point.
-/

namespace ChainGovernance

/-- The nanoseconds of a second. -/
abbrev nanosPerSecond : Nat := 1000000000

/-- How far instants reach from the Unix epoch: `2 ^ 63` seconds, in nanoseconds. -/
abbrev instantReach : Int := 9223372036854775808000000000

/-- An instant, in nanoseconds since the Unix epoch. -/
structure Instant where
  nanos : Int
  lower : -instantReach ≤ nanos
  upper : nanos < instantReach
deriving DecidableEq

namespace Instant

/-- The instant at `nanos` nanoseconds, if it is in range. -/
def ofNanos? (nanos : Int) : Option Instant :=
  if h : -instantReach ≤ nanos ∧ nanos < instantReach then
    some ⟨nanos, h.1, h.2⟩
  else none

/-- The instant `secs` seconds and `nanos` nanoseconds after the epoch. -/
def ofUnix? (secs : Int) (nanos : Nat) : Option Instant :=
  ofNanos? (secs * nanosPerSecond + nanos)

def epoch : Instant := ⟨0, by decide, by decide⟩

/-- Where clocks that are not told the time start. -/
def clockStart : Instant := ⟨1700000000 * nanosPerSecond, by decide, by decide⟩

/-- The instant that follows by a duration, if it is in range. -/
def after? (t : Instant) (duration : Nat) : Option Instant := ofNanos? (t.nanos + duration)

/-- The nanoseconds since the epoch; none have passed before it. -/
def sinceEpoch (t : Instant) : Nat := t.nanos.toNat

/-- The whole milliseconds since the epoch, as far as 64 bits hold them. -/
def epochMillis (t : Instant) : Nat := min (t.sinceEpoch / 1000000) 0xFFFFFFFFFFFFFFFF

def epochSecs (t : Instant) : Nat := t.sinceEpoch / nanosPerSecond

end Instant

namespace Text

/-- The decimal digits of `fraction`, of which there are `width`, without trailing zeros. -/
def fractionDigits (width fraction : Nat) : List Char :=
  let ds := Nat.toDigits 10 fraction
  let padded := List.replicate (width - ds.length) '0' ++ ds
  (padded.reverse.dropWhile (· == '0')).reverse

/-- A number of parts in units. A unit is `size` parts, which is a one and `width` zeros. -/
def decimal (size width parts : Nat) : String :=
  let whole := toString (parts / size)
  let fraction := parts % size
  if fraction = 0 then whole
  else whole ++ "." ++ String.ofList (fractionDigits width fraction)

/-- A duration in nanoseconds, in the largest unit with something before the point. -/
def duration (nanos : Nat) : String :=
  if nanosPerSecond ≤ nanos then decimal nanosPerSecond 9 nanos ++ "s"
  else if 1000000 ≤ nanos then decimal 1000000 6 nanos ++ "ms"
  else if 1000 ≤ nanos then decimal 1000 3 nanos ++ "µs"
  else toString nanos ++ "ns"

end Text

end ChainGovernance
