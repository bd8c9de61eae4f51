import TwakeKickstart.Visio.Event

namespace TwakeKickstart.Visio

open Library

/-! Durations by the grammar of the format. -/

structure Count where
  digits : List Char
  nonempty : digits ≠ []
  all : ∀ c ∈ digits, c.isDigit = true

def Count.value (count : Count) : Nat := Decimal.value count.digits

/-- A part of a time may be followed by the next smaller one only. -/
inductive DurationTime where
  | hours (count : Count) (rest : Option (Count × Option Count))
  | minutes (count : Count) (secs : Option Count)
  | seconds (count : Count)

inductive Amount where
  | weeks (count : Count)
  | days (count : Count) (time : Option DurationTime)
  | timeOnly (time : DurationTime)

inductive Sign where
  | plus
  | minus
  deriving DecidableEq

structure Duration where
  sign : Option Sign
  amount : Amount

def partText (unit : Char) (count : Option Count) : List Char :=
  (count.map fun count => count.digits ++ [unit]).getD []

def partValue (count : Option Count) : Nat := (count.map Count.value).getD 0

namespace DurationTime

def hours? : DurationTime → Option Count
  | hours count _ => some count
  | minutes _ _ => none
  | seconds _ => none

def minutes? : DurationTime → Option Count
  | hours _ rest => rest.map Prod.fst
  | minutes count _ => some count
  | seconds _ => none

def seconds? : DurationTime → Option Count
  | hours _ rest => rest.bind Prod.snd
  | minutes _ secs => secs
  | seconds count => some count

def text (time : DurationTime) : List Char :=
  'T' :: (partText 'H' time.hours? ++ (partText 'M' time.minutes? ++
    partText 'S' time.seconds?))

def length (time : DurationTime) : Nat :=
  (partValue time.hours? * 60 + partValue time.minutes?) * 60 +
    partValue time.seconds?

end DurationTime

namespace Amount

def days? : Amount → Option Count
  | weeks _ => none
  | days count _ => some count
  | timeOnly _ => none

def time? : Amount → Option DurationTime
  | weeks _ => none
  | days _ time => time
  | timeOnly time => some time

def IsWeeks : Amount → Prop
  | weeks _ => True
  | days _ _ => False
  | timeOnly _ => False

def text : Amount → List Char
  | weeks count => count.digits ++ ['W']
  | days count time =>
      partText 'D' (some count) ++ (time.map DurationTime.text).getD []
  | timeOnly time => time.text

/-- The seconds of a duration. -/
def length : Amount → Nat
  | weeks count => count.value * 7 * 24 * 60 * 60
  | days count time =>
      count.value * 24 * 60 * 60 + (time.map DurationTime.length).getD 0
  | timeOnly time => time.length

end Amount

namespace Duration

def signText : Option Sign → List Char
  | none => []
  | some .plus => ['+']
  | some .minus => ['-']

def text (duration : Duration) : String :=
  String.ofList (signText duration.sign ++ 'P' :: duration.amount.text)

/-- The milliseconds of a duration. -/
def length (duration : Duration) : Int :=
  let length : Int := duration.amount.length * 1000
  if duration.sign = some .minus then -length else length

end Duration

/-! What is read of a duration. -/

section ReadUnit

variable {unit other : Char} {count : Option Count} {rest : List Char}

/-- Another unit than the one asked for stands after the digits. -/
def Skips (unit : Char) (text : List Char) : Prop :=
  (text.dropWhile Char.isDigit).head? ≠ some unit

theorem Count.takeWhile (count : Count) (hunit : unit.isDigit = false) :
    (count.digits ++ unit :: rest).takeWhile Char.isDigit = count.digits := by
  rw [List.takeWhile_append_of_pos count.all,
    List.takeWhile_cons_of_neg (by simp [hunit]), List.append_nil]

theorem Count.dropWhile (count : Count) (hunit : unit.isDigit = false) :
    (count.digits ++ unit :: rest).dropWhile Char.isDigit = unit :: rest := by
  rw [List.dropWhile_append_of_pos count.all,
    List.dropWhile_cons_of_neg (by simp [hunit])]

theorem readUnit_of_skips (h : Skips unit rest) :
    readUnit unit rest = (['0'], rest) := by
  rw [readUnit, if_neg]
  rintro ⟨_, hunit⟩
  exact h hunit

def partDigits (count : Option Count) : List Char :=
  (count.map Count.digits).getD ['0']

theorem readUnit_partText (hunit : unit.isDigit = false)
    (skips : count = none → Skips unit rest) :
    readUnit unit (partText unit count ++ rest) =
      (partDigits count, rest) := by
  cases count with
  | none => exact readUnit_of_skips (skips rfl)
  | some count =>
      have htext : partText unit (some count) ++ rest =
          count.digits ++ unit :: rest := by
        simp [partText]
      rw [htext, readUnit, count.takeWhile hunit, count.dropWhile hunit,
        if_pos ⟨count.nonempty, rfl⟩]
      rfl

theorem skips_partText (hother : other.isDigit = false) (hne : other ≠ unit)
    (skips : Skips unit rest) : Skips unit (partText other count ++ rest) := by
  cases count with
  | none => exact skips
  | some count =>
      have htext : partText other (some count) ++ rest =
          count.digits ++ other :: rest := by
        simp [partText]
      rw [Skips, htext, count.dropWhile hother]
      exact fun h => hne (Option.some.inj h)

end ReadUnit

theorem parseInt_partDigits (count : Option Count) :
    parseInt (partDigits count) = Double.ofNat (partValue count) := by
  cases count with
  | none => rfl
  | some count => rfl

theorem readTime_text (time : DurationTime) :
    readTime time.text =
      some (Double.ofNat (partValue time.hours?),
        Double.ofNat (partValue time.minutes?),
        Double.ofNat (partValue time.seconds?)) := by
  have hend (unit : Char) : Skips unit [] := nofun
  have hsecs := @readUnit_partText 'S' time.seconds? [] (by decide)
    fun _ => hend 'S'
  have hmins := @readUnit_partText 'M' time.minutes?
    (partText 'S' time.seconds? ++ []) (by decide)
    fun _ => skips_partText (by decide) (by decide) (hend 'M')
  have hhours := @readUnit_partText 'H' time.hours?
    (partText 'M' time.minutes? ++ (partText 'S' time.seconds? ++ []))
    (by decide) fun _ => skips_partText (by decide) (by decide)
      (skips_partText (by decide) (by decide) (hend 'H'))
  rw [List.append_nil] at hsecs hmins hhours
  rw [DurationTime.text, readTime, hhours, hmins, hsecs,
    if_pos ⟨rfl, rfl⟩, parseInt_partDigits, parseInt_partDigits,
    parseInt_partDigits]

/-- Seconds from days, hours, minutes and seconds, in doubles. -/
def milliseconds (days hours mins secs : Nat) : Double :=
  (((((((Double.ofNat days).mul 24).add (.ofNat hours)).mul 60).add
    (.ofNat mins)).mul 60).add (.ofNat secs)).mul 1000

theorem finite_milliseconds {days hours mins secs : Nat}
    (h : ((days * 24 + hours) * 60 + mins) * 60 + secs < 2 ^ 46) :
    milliseconds days hours mins secs =
      .finite ((((days * 24 + hours) * 60 + mins) * 60 + secs) * 1000) := by
  have hthousand (n : Nat) : n * 1000 = n * 125 * 2 ^ 3 := by omega
  rw [milliseconds, Double.ofNat_of_lt (by omega), Double.mul_finite (by omega),
    Double.ofNat_of_lt (by omega), Double.add_finite (by omega),
    Double.mul_finite (by omega), Double.ofNat_of_lt (by omega),
    Double.add_finite (by omega), Double.mul_finite (by omega),
    Double.ofNat_of_lt (by omega), Double.add_finite (by omega), Double.mul,
    hthousand, Double.ofNat_mul_two_pow (by omega) (by decide)]

theorem days_of_not_weeks {amount : Amount} (h : ¬ amount.IsWeeks) :
    amount.text = partText 'D' amount.days? ++
        (amount.time?.map DurationTime.text).getD [] ∧
      amount.length = partValue amount.days? * 24 * 60 * 60 +
        (amount.time?.map DurationTime.length).getD 0 := by
  cases amount with
  | weeks count => exact absurd trivial h
  | days count time => simp [Amount.text, Amount.length, Amount.days?,
      Amount.time?, partValue]
  | timeOnly time => simp [Amount.text, Amount.length, Amount.days?,
      Amount.time?, partText, partValue]

theorem parseICSDuration_amount {amount : Amount} (h : ¬ amount.IsWeeks) :
    parseICSDuration (String.ofList ('P' :: amount.text)) =
      some (milliseconds (partValue amount.days?)
        (partValue (amount.time?.bind DurationTime.hours?))
        (partValue (amount.time?.bind DurationTime.minutes?))
        (partValue (amount.time?.bind DurationTime.seconds?))) := by
  have hskips : Skips 'D' ((amount.time?.map DurationTime.text).getD []) := by
    cases amount.time? with
    | none => exact nofun
    | some time => exact fun h => absurd (Option.some.inj h) (by decide)
  have hdays := @readUnit_partText 'D' amount.days? _ (by decide)
    fun _ => hskips
  rw [parseICSDuration, String.toList_ofList, (days_of_not_weeks h).1]
  simp only [hdays, parseInt_partDigits]
  cases amount.time? with
  | none => rfl
  | some time =>
      simp only [Option.map_some, Option.getD_some, readTime_text]
      rfl

theorem finite_of_not_weeks {amount : Amount} (h : ¬ amount.IsWeeks)
    (short : amount.length < 2 ^ 46) :
    parseICSDuration (String.ofList ('P' :: amount.text)) =
      some (.finite (amount.length * 1000)) := by
  have hlength : amount.length =
      ((partValue amount.days? * 24 +
        partValue (amount.time?.bind DurationTime.hours?)) * 60 +
        partValue (amount.time?.bind DurationTime.minutes?)) * 60 +
        partValue (amount.time?.bind DurationTime.seconds?) := by
    rw [(days_of_not_weeks h).2]
    cases amount.time? with
    | none => exact (by omega : ∀ n : Nat,
        n * 24 * 60 * 60 + 0 = ((n * 24 + 0) * 60 + 0) * 60 + 0) _
    | some time =>
        simp only [Option.map_some, Option.getD_some, Option.bind_some,
          DurationTime.length]
        omega
  rw [parseICSDuration_amount h, finite_milliseconds (by omega), hlength]

theorem parseICSDuration_sign (sign : Sign) (amount : Amount) :
    parseICSDuration (Duration.text ⟨some sign, amount⟩) = none := by
  cases sign with
  | plus => rw [parseICSDuration, Duration.text, String.toList_ofList]; rfl
  | minus => rw [parseICSDuration, Duration.text, String.toList_ofList]; rfl

theorem parseICSDuration_weeks (count : Count) :
    parseICSDuration (Duration.text ⟨none, .weeks count⟩) = none := by
  have hskips : readUnit 'D' (count.digits ++ ['W']) =
      (['0'], count.digits ++ ['W']) := by
    apply readUnit_of_skips
    rw [Skips, count.dropWhile (by decide)]
    decide
  have htime : readTime (count.digits ++ ['W']) = none := by
    obtain ⟨c, rest, hdigits⟩ := List.exists_cons_of_ne_nil count.nonempty
    have hc : c.isDigit = true := by
      apply count.all
      rw [hdigits]
      exact List.mem_cons_self
    have hne : c ≠ 'T' := by
      rintro rfl
      revert hc
      decide
    rw [hdigits, List.cons_append, readTime, if_neg fun h => hne h.1]
  rw [parseICSDuration, Duration.text, String.toList_ofList]
  simp only [Duration.signText, List.nil_append, Amount.text, hskips, htime]
  rfl

/-! The end of an event. -/

/-- The file gives the event by its start and its duration. -/
structure GivenBy (page : Page) (ics : String) (start : TimeValue)
    (duration : Duration) : Prop where
  dtstart : ∃ place v, taken page ics "DTSTART" = some (place, v) ∧
    parseICSDate page v = some start
  duration : ∃ place, taken page ics "DURATION" = some (place, duration.text)
  dtend : taken page ics "DTEND" = none

section GivenBy

variable {page : Page} {ics : String} {start : TimeValue}
  {duration : Duration}

theorem stop_of_givenBy (given : GivenBy page ics start duration) :
    ∃ event, parseEvent page ics = some event ∧ event.start = some start ∧
      event.stop = later start
        (durationOrHour (parseICSDuration duration.text)) := by
  obtain ⟨_, v, hstart, hdate⟩ := given.dtstart
  obtain ⟨_, hduration⟩ := given.duration
  have hfields : (fieldsOf page fun name =>
      (taken page ics name).map Prod.snd).dtstart = some (some start) := by
    simp [fieldsOf, hstart, hdate]
  rw [parseEvent_eq, eventOf, Fields.event, hfields]
  refine ⟨_, rfl, rfl, ?_⟩
  simp [fieldsOf, hduration, given.dtend]

theorem later_finite_eq_some {ms : Nat} {stop : TimeValue}
    (small : start.ms + ms < 2 ^ 53) :
    later start (.finite ms) = some stop ↔ stop.ms = start.ms + ms := by
  have hclip (sum : Int) : timeClip sum = some stop ↔ stop.ms = sum := by
    rw [timeClip]
    split
    · rw [Option.some.injEq, TimeValue.mk.injEq, eq_comm]
    · rename_i hrange
      refine iff_of_false nofun ?_
      rintro rfl
      exact hrange stop.inRange
  rw [later]
  split
  · rename_i hsum
    have hnat : (start.ms + ms).toNat < 2 ^ 53 := by omega
    rw [Double.ofNat_of_lt hnat, ← Int.toNat_of_nonneg hsum]
    exact hclip _
  · exact hclip _

/-- The length is read, and added to the start. -/
def EndsExactly (page : Page) (ics : String) (start : TimeValue)
    (duration : Duration) : Prop :=
  (∃ ms : Nat, parseICSDuration duration.text = some (.finite ms) ∧
    (ms : Int) = duration.length) ∧
  (0 ≤ duration.length → ∃ event stop, parseEvent page ics = some event ∧
    event.start = some start ∧ event.stop = some stop ∧
    stop.ms = start.ms + duration.length)

theorem plain_of_parseICSDuration {read : Double}
    (h : parseICSDuration duration.text = some read) :
    duration.sign = none ∧ ¬ duration.amount.IsWeeks := by
  obtain ⟨sign, amount⟩ := duration
  cases sign with
  | some sign =>
      rw [parseICSDuration_sign] at h
      cases h
  | none =>
      refine ⟨rfl, ?_⟩
      intro hweeks
      cases amount with
      | weeks count =>
          rw [parseICSDuration_weeks] at h
          cases h
      | days count time => exact hweeks
      | timeOnly time => exact hweeks

theorem length_of_no_sign (h : duration.sign = none) :
    duration.length = (duration.amount.length * 1000 : Nat) := by
  rw [Duration.length, h, if_neg nofun, Int.natCast_mul]
  rfl

/-- Nothing but a length above zero without a sign and not in weeks is added,
and only up to the last date. -/
theorem endsExactly_iff (given : GivenBy page ics start duration) :
    EndsExactly page ics start duration ↔
      duration.sign = none ∧ ¬ duration.amount.IsWeeks ∧
        0 < duration.length ∧
          start.ms + duration.length ≤ 8640000000000000 := by
  obtain ⟨event, hevent, hstart, hstop⟩ := stop_of_givenBy given
  have hrange := start.inRange
  constructor
  · rintro ⟨⟨ms, hread, hms⟩, hend⟩
    obtain ⟨hsign, hweeks⟩ := plain_of_parseICSDuration hread
    have hpositive : 0 ≤ duration.length := hms ▸ Int.natCast_nonneg ms
    obtain ⟨other, stop, hother, _, hotherStop, hsum⟩ := hend hpositive
    have hsame : later start (durationOrHour (some (.finite ms))) =
        some stop := by
      rw [hevent] at hother
      cases hother
      rw [← hotherStop, hstop, hread]
    have hstopRange := stop.inRange
    refine ⟨hsign, hweeks, ?_, by omega⟩
    by_contra hzero
    have hms0 : ms = 0 := by omega
    rw [hms0, durationOrHour, if_pos rfl, hour,
      later_finite_eq_some (by omega)] at hsame
    omega
  · rintro ⟨hsign, hweeks, hpositive, hlast⟩
    have hlength := length_of_no_sign hsign
    have hshort : duration.amount.length < 2 ^ 46 := by omega
    have htext : duration.text =
        String.ofList ('P' :: duration.amount.text) := by
      rw [Duration.text, hsign]
      rfl
    have hread := finite_of_not_weeks hweeks hshort
    rw [← htext] at hread
    refine ⟨⟨_, hread, hlength.symm⟩, fun _ => ?_⟩
    have hinRange : (start.ms + duration.length).natAbs ≤
        8640000000000000 := by
      omega
    refine ⟨event, ⟨_, hinRange⟩, hevent, hstart, ?_, rfl⟩
    have hne : Double.finite (duration.amount.length * 1000) ≠ .finite 0 := by
      intro hzero
      have := Double.finite.inj hzero
      omega
    rw [hstop, hread, durationOrHour, if_neg hne]
    apply (later_finite_eq_some (by omega)).mpr
    change start.ms + duration.length = _
    rw [hlength]

end GivenBy

/-! A meeting on the fifth of January. -/

def meetingIcs (duration : Duration) : String :=
  "BEGIN:VEVENT\r\nDTSTART:20260105T100000Z\r\nDURATION:" ++ duration.text ++
    "\r\nEND:VEVENT\r\n"

def single : Count := ⟨['1'], by decide, List.all_eq_true.mp (by decide)⟩

def oneWeek : Duration := ⟨none, .weeks single⟩

def noTime : Count := ⟨['0'], by decide, List.all_eq_true.mp (by decide)⟩

def noSeconds : Duration := ⟨none, .timeOnly (.seconds noTime)⟩

def dayAndHour : Duration := ⟨none, .days single (some (.hours single none))⟩

theorem endsExactly_dayAndHour :
    EndsExactly meetingPage (meetingIcs dayAndHour) meetingStart dayAndHour ↔
      dayAndHour.sign = none ∧ ¬ dayAndHour.amount.IsWeeks ∧
        0 < dayAndHour.length ∧
          meetingStart.ms + dayAndHour.length ≤ 8640000000000000 :=
  endsExactly_iff ⟨⟨1, "20260105T100000Z", by decide +kernel,
    by decide +kernel⟩, ⟨2, by decide +kernel⟩, by decide +kernel⟩

/-- A week is not read at all, and an event of no seconds takes an hour. -/
theorem week_not_endsExactly :
    (GivenBy meetingPage (meetingIcs oneWeek) meetingStart oneWeek ∧
      ¬ EndsExactly meetingPage (meetingIcs oneWeek) meetingStart oneWeek) ∧
    GivenBy meetingPage (meetingIcs noSeconds) meetingStart noSeconds ∧
      ¬ EndsExactly meetingPage (meetingIcs noSeconds) meetingStart noSeconds := by
  refine ⟨⟨⟨⟨1, "20260105T100000Z", by decide +kernel, by decide +kernel⟩,
    ⟨2, by decide +kernel⟩, by decide +kernel⟩, ?_⟩,
    ⟨⟨1, "20260105T100000Z", by decide +kernel, by decide +kernel⟩,
      ⟨2, by decide +kernel⟩, by decide +kernel⟩, ?_⟩
  · rintro ⟨⟨ms, hread, _⟩, _⟩
    have hnone : parseICSDuration oneWeek.text = none := by decide +kernel
    rw [hnone] at hread
    cases hread
  · rintro ⟨_, hend⟩
    obtain ⟨event, stop, hevent, _, hstop, hsum⟩ := hend (by decide +kernel)
    have hhour : (parseEvent meetingPage (meetingIcs noSeconds)).map
        (fun event => event.stop.map TimeValue.ms) =
          some (some 1767610800000) := by
      decide +kernel
    rw [hevent, Option.map_some, hstop, Option.map_some] at hhour
    have hms := Option.some.inj (Option.some.inj hhour)
    rw [hsum] at hms
    revert hms
    decide +kernel

end TwakeKickstart.Visio
