/-
Interpose.Proofs.Time.Moments — the forms of a moment, there and back.

A moment has two forms in which it leaves the program: a timestamp, in
messages, and a number of microseconds, in rows. The first keeps all of it,
leap seconds too. The second keeps whole microseconds and has no leap
seconds: what goes beyond the second goes into the next one.
-/
import Interpose.Time.DateTime

namespace Interpose

theorem toInt32_max (a b : Int32) : (max a b).toInt = max a.toInt b.toInt := by
  have hdef : max a b = if a ≤ b then b else a := rfl
  rw [hdef, Int.max_def]
  simp only [Int32.le_iff_toInt_le]
  split <;> rfl

namespace DateTime

/-! ## Moments -/

theorem of?_self (d : DateTime) : of? d.secs d.nanos = some d := dif_pos d.isMoment

theorem of?_eq_some_iff {secs : Int} {nanos : Nat} {d : DateTime} :
    of? secs nanos = some d ↔ d.secs = secs ∧ d.nanos = nanos := by
  constructor
  · intro h
    unfold of? at h
    split at h
    · cases h
      exact ⟨rfl, rfl⟩
    · cases h
  · rintro ⟨rfl, rfl⟩
    exact d.of?_self

theorem exists_of?_iff {secs : Int} {nanos : Nat} :
    (∃ d, of? secs nanos = some d) ↔ IsMoment secs nanos := by
  constructor
  · rintro ⟨d, hd⟩
    obtain ⟨rfl, rfl⟩ := of?_eq_some_iff.mp hd
    exact d.isMoment
  · exact fun h => ⟨_, dif_pos h⟩

/-! ## Timestamps -/

theorem toInt_seconds (d : DateTime) : d.toTimestamp.seconds.toInt = d.secs := by
  obtain ⟨hfirst, hlast, -⟩ := d.isMoment
  unfold firstSecond at hfirst
  unfold lastSecond at hlast
  exact Int64.toInt_ofInt_of_le (by omega) (by omega)

theorem toInt_nanos (d : DateTime) : d.toTimestamp.nanos.toInt = d.nanos := by
  obtain ⟨-, -, hnanos, -⟩ := d.isMoment
  exact Int32.toInt_ofInt_of_le (by omega) (by omega)

/-- **A timestamp keeps the whole moment**, be it in a leap second or before 1970. -/
theorem ofTimestamp?_toTimestamp (d : DateTime) : ofTimestamp? d.toTimestamp = some d := by
  rw [ofTimestamp?, toInt_seconds, toInt_nanos, Int.toNat_natCast, of?_self]

/-- And it is the timestamp the moment was read from, unless that had negative nanoseconds. -/
theorem toTimestamp_of_ofTimestamp? {t : Timestamp} {d : DateTime} (h : ofTimestamp? t = some d) :
    d.toTimestamp = { t with nanos := max t.nanos 0 } := by
  obtain ⟨hsecs, hnanos⟩ := of?_eq_some_iff.mp h
  have hseconds : d.toTimestamp.seconds = t.seconds :=
    Int64.toInt_inj.mp (d.toInt_seconds.trans hsecs)
  have hclamped : d.toTimestamp.nanos = max t.nanos 0 := by
    refine Int32.toInt_inj.mp ?_
    rw [toInt_nanos, hnanos, toInt32_max]
    exact Int.ofNat_toNat _
  rw [← hseconds, ← hclamped]

/-! ## Microseconds -/

/-- No moment is too early or too late for its microseconds to be counted. -/
theorem toInt_micros (d : DateTime) : d.micros.toInt = d.secs * 1000000 + d.nanos / 1000 := by
  obtain ⟨hfirst, hlast, hnanos, -⟩ := d.isMoment
  unfold firstSecond at hfirst
  unfold lastSecond at hlast
  exact Int64.toInt_ofInt_of_le (by omega) (by omega)

/-- What is counted in microseconds is whole ones, and a leap second as the next second. -/
theorem ofMicros?_micros (d : DateTime) :
    ofMicros? d.micros = of? (d.secs + d.nanos / 1000000000) (d.nanos % 1000000000 / 1000 * 1000) := by
  have hsecs : d.micros.toInt / 1000000 = d.secs + d.nanos / 1000000000 := by
    rw [toInt_micros]
    omega
  have hnanos : (d.micros.toInt % 1000000).toNat = d.nanos % 1000000000 / 1000 := by
    rw [toInt_micros]
    omega
  rw [ofMicros?, hsecs, hnanos]

/-- The moment without what is less than a microsecond. -/
def wholeMicros (d : DateTime) : DateTime where
  secs := d.secs
  nanos := d.nanos / 1000 * 1000
  isMoment := by
    obtain ⟨hfirst, hlast, hnanos, hleap⟩ := d.isMoment
    exact ⟨hfirst, hlast, by omega, fun h => hleap (by omega)⟩

/-- **Of a moment that is not in a leap second, the microseconds keep all but their parts.** -/
theorem ofMicros?_micros_of_not_leap {d : DateTime} (h : d.isLeapSecond = false) :
    ofMicros? d.micros = some d.wholeMicros := by
  have hlt : d.nanos < 1000000000 := by simpa [isLeapSecond] using h
  rw [ofMicros?_micros, of?_eq_some_iff, wholeMicros]
  refine ⟨?_, ?_⟩ <;> dsimp only <;> omega

end DateTime

end Interpose
