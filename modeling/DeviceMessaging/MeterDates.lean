import DeviceMessaging.CalinReadings
import DeviceMessaging.CalinWire
import DeviceMessaging.Plugins
import DeviceMessaging.StoredFields
import DeviceMessaging.VendorText

namespace DeviceMessaging

open CivilCalendar

/-- `String(x)` of a safe integer. -/
def integerText (x : ℚ) : List Char :=
  (if x < 0 then ['-'] else []) ++ Nat.toDigits 10 x.num.natAbs

/-- The date does not roll over: a timestamp of it says the same year, month and day. -/
def standsInCalendar (fullYear month day : ℚ) : Prop :=
  let utc := dateUTC fullYear (month - 1) day
  getUTCFullYear utc = some fullYear ∧ getUTCMonth utc = some (month - 1) ∧
    getUTCDate utc = some day

instance (fullYear month day : ℚ) : Decidable (standsInCalendar fullYear month day) :=
  inferInstanceAs (Decidable (_ ∧ _))

def SetDatePayload.isSafe (p : SetDatePayload) : Prop :=
  isSafeInteger p.year ∧ isSafeInteger p.month ∧ isSafeInteger p.day

instance (p : SetDatePayload) : Decidable p.isSafe :=
  inferInstanceAs (Decidable (_ ∧ _))

def invalidDate : VendorError where
  message := "Invalid payload for setting date"
  skipRetry := true
  isOwn := true

def padNumber (n : Nat) (x : ℚ) : List Char :=
  Calin.padStart (integerText x) n '0'

namespace CalinApiV1

/-- `yymmddww`, in UTC. -/
def formatDate (p : SetDatePayload) : Except VendorError (List Char) :=
  if ¬ p.isSafe then .error invalidDate
  else
    let fullYear := Calin.fullYearOf p.year
    if ¬ standsInCalendar fullYear p.month p.day then .error invalidDate
    else
      let weekday := (getUTCDay (dateUTC fullYear (p.month - 1) p.day)).getD 0
      .ok (padNumber 2 (jsMod fullYear 100) ++ padNumber 2 p.month ++ padNumber 2 p.day ++
        padNumber 2 weekday)

/-- The year, month and day of a `Date` item that reports `yy-mm-dd ww`. -/
def readDate (data : List Char) : Option ℚ × Option ℚ × Option ℚ :=
  let date := (splitText ' ' data)[0]?.getD []
  let parts := splitText '-' date
  (toSafeNumberOrNull (some (['2', '0'] ++ parts[0]?.getD [])), toSafeNumberOrNull parts[1]?,
    toSafeNumberOrNull parts[2]?)

end CalinApiV1

namespace CalinApiV2

/-- `YYYY-MM-DD HH:mm:ss`, at midnight. -/
def formatDate (p : SetDatePayload) : Except VendorError (List Char) :=
  if ¬ p.isSafe then .error invalidDate
  else
    let fullYear := Calin.fullYearOf p.year
    if ¬ standsInCalendar fullYear p.month p.day then .error invalidDate
    else .ok (padNumber 4 fullYear ++ '-' :: padNumber 2 p.month ++ '-' :: padNumber 2 p.day ++
      " 00:00:00".toList)

/-- The year, month and day of a `Clock(time)` item. -/
def readDate (data : List Char) : Option ℚ × Option ℚ × Option ℚ :=
  let date := (splitText ' ' data)[0]?.getD []
  let parts := splitText '-' date
  (toSafeNumberOrNull parts[0]?, toSafeNumberOrNull parts[1]?, toSafeNumberOrNull parts[2]?)

end CalinApiV2

section Asked

variable (year month day : Nat)

def datePayload : SetDatePayload :=
  ⟨year, month, day⟩

/-- The date asked for; a year below one hundred is of the two thousands. -/
def askedDate : Date :=
  ⟨if year < 100 then 2000 + year else year, month, day⟩

def askedYear : Nat :=
  if year < 100 then 2000 + year else year

def setDate (deviceIdentifier : String) : Calin.ToEncode where
  deviceIdentifier := deviceIdentifier
  devicePhase := .A
  requestType := .setDate
  payload := some (.date (datePayload year month day))

/-- The bytes that the date takes in the frame, behind identifier and password. -/
def dateOnWire (frame : List Nat) : List Nat :=
  ByteSlices.slice frame 16 20

/-- The date set is a date of the calendar, with its day of the week, and reads back as the
date asked for; a reading shows the same four bytes where its payload begins. -/
def ChirpstackFaithful : Prop :=
  ∀ deviceIdentifier frame,
    Calin.encodeRequestData (setDate year month day deviceIdentifier) = some frame →
    (askedDate year month day).Valid ∧
      (dateOnWire frame)[0]?.map (fun byte => (Calin.unscramble byte : Int)) =
        some (weekday (askedDate year month day).dayNumber) ∧
      ∃ d m y, Calin.decodeReadDate (List.replicate 12 0 ++ (dateOnWire frame).map UInt8.ofNat) =
          .date d m y ∧
        Spells d.toList day ∧ Spells m.toList month ∧ Spells y.toList (askedYear year)

/-- What a meter reports that was set to a date on the V1 wire. -/
def reportV1 (wire : List Char) : List Char :=
  ByteSlices.slice wire 0 2 ++ '-' :: ByteSlices.slice wire 2 4 ++ '-' ::
    ByteSlices.slice wire 4 6 ++ ' ' :: wire.drop 6

def ApiV1Faithful : Prop :=
  ∀ wire, CalinApiV1.formatDate (datePayload year month day) = .ok wire →
    (askedDate year month day).Valid ∧
      Spells (wire.drop 6) (weekday (askedDate year month day).dayNumber).toNat ∧
      CalinApiV1.readDate (reportV1 wire) =
        (some (askedYear year : ℚ), some (month : ℚ), some (day : ℚ))

def ApiV2Faithful : Prop :=
  ∀ wire, CalinApiV2.formatDate (datePayload year month day) = .ok wire →
    (askedDate year month day).Valid ∧
      CalinApiV2.readDate wire = (some (askedYear year : ℚ), some (month : ℚ), some (day : ℚ))

/-- The plugins send this date all, or none of them. -/
def AcceptAlike : Prop :=
  ((Calin.encodeDateBytes (datePayload year month day)).isSome ↔
      (CalinApiV1.formatDate (datePayload year month day)).isOk) ∧
    ((CalinApiV1.formatDate (datePayload year month day)).isOk ↔
      (CalinApiV2.formatDate (datePayload year month day)).isOk)

end Asked

section Days

variable {year month day : Nat}

theorem askedDate_year : (askedDate year month day).year = (askedYear year : Int) := by
  unfold askedDate askedYear
  dsimp only
  split_ifs <;> push_cast <;> rfl

theorem askedYear_bounds (hy : year ≤ 9999) : 100 ≤ askedYear year ∧ askedYear year ≤ 9999 := by
  unfold askedYear
  split <;> omega

theorem fullYearOf_asked : Calin.fullYearOf (year : ℚ) = (askedYear year : ℚ) := by
  unfold Calin.fullYearOf askedYear
  have hlt : (year : ℚ) < 100 ↔ year < 100 := by exact_mod_cast Iff.rfl
  by_cases h : year < 100
  · rw [if_pos (hlt.mpr h), if_pos h]
    push_cast
    rfl
  · rw [if_neg (mt hlt.mp h), if_neg h]

/-- The timestamp of the date asked for, which may have rolled over. -/
theorem dateUTC_asked (h : (RequestPayload.date year month day).Accepted) :
    dateUTC (askedYear year) ((month : ℚ) - 1) day = some (askedDate year month day).dayNumber := by
  obtain ⟨hy, hm, hm', hd, hd'⟩ := h
  obtain ⟨hlo, hhi⟩ := askedYear_bounds hy
  have htm : trunc ((month : ℚ) - 1) = (month : Int) - 1 := by
    have hcast : (month : ℚ) - 1 = ((month - 1 : Int) : ℚ) := by push_cast; rfl
    rw [hcast, trunc_int]
  have htd : trunc (day : ℚ) = day := trunc_int day
  have hty : trunc (askedYear year : ℚ) = askedYear year := trunc_int (askedYear year)
  have hmonth : ((month : Int) - 1) / 12 = 0 := by omega
  have hmod : (((month : Int) - 1) % 12).toNat = month - 1 := by omega
  have hnum : (askedDate year month day).dayNumber = daysBeforeYear (askedYear year) +
      daysBeforeMonth (askedYear year) (month - 1) + day - 1 := by
    unfold Date.dayNumber
    rw [askedDate_year]
    rfl
  have hrange : daysBeforeMonth (askedYear year) (month - 1) ≤ 366 := by
    have hmono := daysBeforeMonth_mono (askedYear year) (by omega : month - 1 ≤ 12) (Nat.le_refl 12)
    have hleap : leapDay (askedYear year) ≤ 1 := by
      unfold leapDay
      split <;> decide
    rw [daysBeforeMonth_year] at hmono
    omega
  have hbase : daysBeforeYear (askedYear year) = 365 * askedYear year + ((askedYear year : Int) + 3) / 4 -
    ((askedYear year : Int) + 99) / 100 + ((askedYear year : Int) + 399) / 400 := rfl
  have hepoch : daysBeforeYear 1970 = 719528 := by decide
  have hcentury : ¬ (0 ≤ (askedYear year : Int) ∧ (askedYear year : Int) ≤ 99) := by omega
  have hclip : ((askedDate year month day).dayNumber - daysBeforeYear 1970).natAbs ≤ 100000000 := by
    omega
  unfold dateUTC
  dsimp only
  rw [htm, htd, hty, hmonth, hmod, if_neg hcentury, Int.add_zero, ← hnum, if_pos hclip]

theorem standsInCalendar_asked (h : (RequestPayload.date year month day).Accepted) :
    standsInCalendar (askedYear year) month day ↔ (askedDate year month day).Valid := by
  have hutc := dateUTC_asked h
  unfold standsInCalendar
  dsimp only
  rw [hutc]
  constructor
  · rintro ⟨hy, hm, hd⟩
    obtain ⟨n, hn, hyear, hmonth, hday⟩ := getUTC_eq hy hm hd
    obtain rfl := Option.some.inj hn
    have hdate : civilOfDay (askedDate year month day).dayNumber = askedDate year month day := by
      refine Date.ext ?_ ?_ ?_
      · rw [askedDate_year]
        exact_mod_cast hyear
      · rw [sub_add_cancel] at hmonth
        exact_mod_cast hmonth
      · exact_mod_cast hday
    rw [← hdate]
    exact civilOfDay_valid _
  · intro hv
    have hdate := civilOfDay_dayNumber hv
    refine ⟨?_, ?_, ?_⟩
    · change some (((civilOfDay _).year : Int) : ℚ) = _
      rw [hdate, askedDate_year]
      rfl
    · change some ((((civilOfDay _).month : Nat) : ℚ) - 1) = _
      rw [hdate]
      rfl
    · change some ((((civilOfDay _).day : Nat)) : ℚ) = _
      rw [hdate]
      rfl

theorem toBcd_nat {v : Nat} (hv : v ≤ 99) : Calin.toBcd (v : ℚ) = some (16 * (v / 10) + v % 10) := by
  have hq : ¬ (99 : ℚ) < v := not_lt.mpr (by exact_mod_cast hv)
  have h0 : ¬ (v : ℚ) < 0 := not_lt.mpr (by positivity)
  have hint : isInteger (v : ℚ) := isInteger_int v
  unfold Calin.toBcd
  rw [if_neg (not_or.mpr ⟨not_not.mpr hint, not_or.mpr ⟨h0, hq⟩⟩)]
  have hnum : (v : ℚ).num.toNat = v := by simp
  rw [hnum, Calin.bcd_eq hv]

theorem weekday_bounds (n : Int) : 0 ≤ weekday n ∧ weekday n < 7 := by
  unfold weekday
  omega

/-- The byte of two decimal digits. -/
def bcdByte (v : Nat) : Nat :=
  16 * (v / 10) + v % 10

theorem encodeDateBytes_asked (h : (RequestPayload.date year month day).Accepted) :
    Calin.encodeDateBytes (datePayload year month day) = some [bcdByte (askedYear year % 100),
      bcdByte month, bcdByte day,
      bcdByte (weekday (askedDate year month day).dayNumber).toNat] := by
  have hutc := dateUTC_asked h
  obtain ⟨hw, hw'⟩ := weekday_bounds (askedDate year month day).dayNumber
  have hwd : ((weekday (askedDate year month day).dayNumber : Int) : ℚ) =
      ((weekday (askedDate year month day).dayNumber).toNat : ℚ) := by
    exact_mod_cast (Int.toNat_of_nonneg hw).symm
  have hmod : jsMod (askedYear year) 100 = ((askedYear year % 100 : Nat) : ℚ) :=
    jsMod_nat (askedYear year) 100
  obtain ⟨hy, hm, hm', hd, hd'⟩ := h
  unfold Calin.encodeDateBytes datePayload
  dsimp only
  rw [fullYearOf_asked, hutc, hmod, toBcd_nat (by omega), toBcd_nat (by omega), toBcd_nat (by omega)]
  simp only [getUTCDay, Option.map_some, Option.bind_eq_bind, Option.bind_some]
  rw [hwd, toBcd_nat (by omega)]
  rfl

theorem dateOnWire_setDate {deviceIdentifier : String} {frame : List Nat} {y m d w : Nat}
    (hws : Calin.encodeDateBytes (datePayload year month day) = some [y, m, d, w])
    (h : Calin.encodeRequestData (setDate year month day deviceIdentifier) = some frame) :
    dateOnWire frame = [w, d, m, y].map Calin.add33H := by
  obtain ⟨address, config, ws, -, ha, -, hconfig, -, rfl⟩ :=
    Calin.encodeRequestData_some h (by exact nofun)
  have hconfig' : (Calin.encodeDateBytes (datePayload year month day)).map
      (Calin.writeConfig [0xC0, 0x10]) = some config := hconfig
  rw [hws] at hconfig'
  obtain rfl := Option.some.inj hconfig'
  have hlen : (Calin.requestBody address 0x04
      (Calin.frameData (Calin.writeConfig [0xC0, 0x10] [y, m, d, w]))).length = 20 :=
    Calin.requestBody_length ha 0x04 _
  have hdata : ByteSlices.slice
      (Calin.requestBody address 0x04
        (Calin.frameData (Calin.writeConfig [0xC0, 0x10] [y, m, d, w]))) 16 20 =
      (Calin.frameData (Calin.writeConfig [0xC0, 0x10] [y, m, d, w])).drop 6 := by
    have hdrop := congrArg (List.drop 6) (Calin.requestBody_drop ha 0x04
      (Calin.frameData (Calin.writeConfig [0xC0, 0x10] [y, m, d, w])))
    rw [List.drop_drop] at hdrop
    unfold ByteSlices.slice
    rw [List.take_of_length_le hlen.le]
    exact hdrop
  unfold dateOnWire
  rw [Calin.encodeFrame_eq address rfl]
  exact (ByteSlices.slice_append_left hlen.ge).trans hdata

theorem subtract_add {v : Nat} (hv : v < 256) :
    Calin.subtract33H (UInt8.ofNat (Calin.add33H v)) = v := by
  unfold Calin.subtract33H Calin.add33H
  rw [UInt8.toNat_ofNat']
  omega

theorem bcdByte_lt {v : Nat} (hv : v ≤ 99) : bcdByte v < 256 := by
  unfold bcdByte
  omega

theorem bcdToString_digits {tens ones : Nat} (htens : tens < 16) (hones : ones < 16) :
    (Calin.bcdToString (some (16 * tens + ones))).toList =
      [Nat.digitChar tens, Nat.digitChar ones] := by
  unfold Calin.bcdToString Calin.hexText
  dsimp only
  rw [String.toList_ofList]
  rcases Nat.eq_zero_or_pos tens with rfl | hpos
  · have hlt : 16 * 0 + ones < 16 := by omega
    rw [Nat.toDigits_of_lt_base hlt, Nat.mul_zero, Nat.zero_add]
    rfl
  · have hle : 16 ≤ 16 * tens + ones := by omega
    have hdiv : (16 * tens + ones) / 16 = tens := by omega
    have hmod : (16 * tens + ones) % 16 = ones := by omega
    rw [Nat.toDigits_of_base_le (by omega) hle, hdiv, hmod, Nat.toDigits_of_lt_base htens]
    rfl

theorem spells_digit {n : Nat} (hn : n < 10) : Spells [Nat.digitChar n] n := by
  have h := padStart_spells n 0
  rw [Nat.toDigits_of_lt_base hn] at h
  exact h

theorem spells_digits {tens ones : Nat} (htens : tens < 10) (hones : ones < 10) :
    Spells [Nat.digitChar tens, Nat.digitChar ones] (10 * tens + ones) :=
  (spells_digit htens).append (spells_digit hones)

theorem spells_twenty : Spells ['2', '0'] 20 :=
  spells_digits (by omega : 2 < 10) (by omega : 0 < 10)

/-- Two decimal digits in a byte are read as these digits. -/
theorem bcdToString_spells {v : Nat} (hv : v ≤ 99) :
    Spells (Calin.bcdToString (some (bcdByte v))).toList v ∧
      Spells ("20" ++ Calin.bcdToString (some (bcdByte v))).toList (2000 + v) := by
  have htens : v / 10 < 10 := by omega
  have hones : v % 10 < 10 := by omega
  have hdigits : (Calin.bcdToString (some (bcdByte v))).toList =
      [Nat.digitChar (v / 10), Nat.digitChar (v % 10)] :=
    bcdToString_digits (by omega) (by omega)
  have hspells := spells_digits htens hones
  rw [Nat.div_add_mod] at hspells
  have htwenty : "20".toList = ['2', '0'] := rfl
  have happend := spells_twenty.append hspells
  simp only [List.length_cons, List.length_nil, Nat.reduceAdd, Nat.reducePow, Nat.reduceMul] at happend
  rw [String.toList_append, hdigits, htwenty]
  exact ⟨hspells, happend⟩

theorem parseDateTimeByte_wire {v : Nat} (hv : v ≤ 99) :
    Calin.parseDateTimeByte (some (UInt8.ofNat (Calin.add33H (bcdByte v)))) =
      Calin.bcdToString (some (bcdByte v)) := by
  unfold Calin.parseDateTimeByte
  rw [Option.map_some, subtract_add (bcdByte_lt hv)]

theorem Spells.unique {text : List Char} {m n : Nat} (h : Spells text m) (h' : Spells text n) :
    m = n :=
  h.2.2.symm.trans h'.2.2

theorem weekday_toNat (n : Int) : ((weekday n).toNat : Int) = weekday n :=
  Int.toNat_of_nonneg (weekday_bounds n).1

/-- ChirpStack sends every date: those that read back are of the calendar and in the years
whose last two digits say which. -/
theorem chirpstackFaithful_iff (h : (RequestPayload.date year month day).Accepted) :
    ChirpstackFaithful year month day ↔ (askedDate year month day).Valid ∧
      2000 ≤ askedYear year ∧ askedYear year ≤ 2099 := by
  have hws := encodeDateBytes_asked h
  obtain ⟨hy, hm, hm', hd, hd'⟩ := h
  have hweek := weekday_bounds (askedDate year month day).dayNumber
  have hyear := bcdToString_spells (by omega : askedYear year % 100 ≤ 99)
  have hread : ∀ deviceIdentifier frame,
      Calin.encodeRequestData (setDate year month day deviceIdentifier) = some frame →
      (dateOnWire frame)[0]?.map (fun byte => (Calin.unscramble byte : Int)) =
        some (weekday (askedDate year month day).dayNumber) ∧
      Calin.decodeReadDate (List.replicate 12 0 ++ (dateOnWire frame).map UInt8.ofNat) =
        .date (Calin.bcdToString (some (bcdByte day))) (Calin.bcdToString (some (bcdByte month)))
          ("20" ++ Calin.bcdToString (some (bcdByte (askedYear year % 100)))) := by
    intro deviceIdentifier frame hframe
    rw [dateOnWire_setDate hws hframe]
    constructor
    · have hbyte : bcdByte (weekday (askedDate year month day).dayNumber).toNat =
          (weekday (askedDate year month day).dayNumber).toNat := by
        unfold bcdByte
        omega
      have hun : Calin.unscramble (Calin.add33H
          (bcdByte (weekday (askedDate year month day).dayNumber).toNat)) = _ :=
        Calin.unscramble_add33H (bcdByte_lt (by omega))
      change some (Calin.unscramble (Calin.add33H _) : Int) = _
      rw [hun, hbyte, weekday_toNat]
    · rw [← parseDateTimeByte_wire (by omega : day ≤ 99),
        ← parseDateTimeByte_wire (by omega : month ≤ 99),
        ← parseDateTimeByte_wire (by omega : askedYear year % 100 ≤ 99)]
      rfl
  constructor
  · intro hf
    have hframe : ∃ frame, Calin.encodeRequestData (setDate year month day "") = some frame := by
      have heui : Calin.deviceEuiBytesOf (setDate year month day "").deviceIdentifier =
          some (List.replicate 6 0) := (by decide : Calin.deviceEuiBytesOf "" = _)
      have hconfig : Calin.determineCommandConfig (setDate year month day "") =
          (Calin.encodeDateBytes (datePayload year month day)).map
            (Calin.writeConfig [0xC0, 0x10]) := rfl
      unfold Calin.encodeRequestData
      rw [if_neg (by exact nofun), heui, hconfig, hws]
      exact ⟨_, rfl⟩
    obtain ⟨frame, hframe⟩ := hframe
    obtain ⟨hv, -, d, m, y, hdate, -, -, hspell⟩ := hf "" frame hframe
    rw [(hread _ _ hframe).2] at hdate
    obtain ⟨-, -, rfl⟩ := Calin.Reading.date.inj hdate
    have heq := hyear.2.unique hspell
    exact ⟨hv, by omega, by omega⟩
  · rintro ⟨hv, hlo, hhi⟩ deviceIdentifier frame hframe
    obtain ⟨hw, hdate⟩ := hread _ _ hframe
    refine ⟨hv, hw, _, _, _, hdate, (bcdToString_spells (by omega)).1,
      (bcdToString_spells (by omega)).1, ?_⟩
    have heq : 2000 + askedYear year % 100 = askedYear year := by omega
    have hspell := hyear.2
    rw [heq] at hspell
    exact hspell

theorem integerText_nat (n : Nat) : integerText (n : ℚ) = Nat.toDigits 10 n := by
  have h0 : ¬ (n : ℚ) < 0 := not_lt.mpr (by positivity)
  unfold integerText
  rw [if_neg h0, List.nil_append, Rat.num_natCast, Int.natAbs_natCast]

theorem padNumber_spells (n k : Nat) : Spells (padNumber k (n : ℚ)) n := by
  unfold padNumber Calin.padStart
  rw [integerText_nat]
  exact padStart_spells n k

theorem padNumber_length {n : Nat} (hn : n ≤ 99) : (padNumber 2 (n : ℚ)).length = 2 := by
  have hlen := (Nat.length_toDigits_le_iff (n := n) (b := 10) (k := 2) (by decide) (by decide)).mpr
    (by omega)
  unfold padNumber Calin.padStart
  rw [integerText_nat, List.length_append, List.length_replicate]
  omega

theorem isSafe_asked (h : (RequestPayload.date year month day).Accepted) :
    (datePayload year month day).isSafe := by
  have hsafe : ∀ n : Nat, n ≤ 9999 → isSafeInteger (n : ℚ) := by
    intro n hn
    refine ⟨isInteger_int n, ?_⟩
    rw [Rat.num_natCast, Int.natAbs_natCast]
    omega
  obtain ⟨hy, hm, hm', hd, hd'⟩ := h
  exact ⟨hsafe year hy, hsafe month (by omega), hsafe day (by omega)⟩

/-- What V1 sends, if the date is of the calendar. -/
theorem formatDateV1_asked (h : (RequestPayload.date year month day).Accepted) :
    CalinApiV1.formatDate (datePayload year month day) =
      if (askedDate year month day).Valid then
        .ok (padNumber 2 ((askedYear year % 100 : Nat) : ℚ) ++ padNumber 2 (month : ℚ) ++
          padNumber 2 (day : ℚ) ++
          padNumber 2 ((weekday (askedDate year month day).dayNumber).toNat : ℚ))
      else .error invalidDate := by
  have hstands := standsInCalendar_asked h
  have hutc := dateUTC_asked h
  have hmod : jsMod (askedYear year) 100 = ((askedYear year % 100 : Nat) : ℚ) :=
    jsMod_nat (askedYear year) 100
  have hweek : ((weekday (askedDate year month day).dayNumber : Int) : ℚ) =
      ((weekday (askedDate year month day).dayNumber).toNat : ℚ) := by
    exact_mod_cast (weekday_toNat _).symm
  unfold CalinApiV1.formatDate
  rw [if_neg (not_not.mpr (isSafe_asked h))]
  unfold datePayload
  dsimp only
  rw [fullYearOf_asked]
  by_cases hv : (askedDate year month day).Valid
  · rw [if_neg (not_not.mpr (hstands.mpr hv)), if_pos hv, hutc, hmod]
    simp only [getUTCDay, Option.map_some, Option.getD_some]
    rw [hweek]
  · rw [if_pos (mt hstands.mp hv), if_neg hv]

theorem formatDateV2_asked (h : (RequestPayload.date year month day).Accepted) :
    CalinApiV2.formatDate (datePayload year month day) =
      if (askedDate year month day).Valid then
        .ok (padNumber 4 (askedYear year : ℚ) ++ '-' :: padNumber 2 (month : ℚ) ++
          '-' :: padNumber 2 (day : ℚ) ++ " 00:00:00".toList)
      else .error invalidDate := by
  have hstands := standsInCalendar_asked h
  unfold CalinApiV2.formatDate
  rw [if_neg (not_not.mpr (isSafe_asked h))]
  unfold datePayload
  dsimp only
  rw [fullYearOf_asked]
  by_cases hv : (askedDate year month day).Valid
  · rw [if_neg (not_not.mpr (hstands.mpr hv)), if_pos hv]
  · rw [if_pos (mt hstands.mp hv), if_neg hv]

/-- A date text before a blank, taken apart. -/
theorem splitText_date {y m d : Nat} {yy mm dd : List Char} (rest : List Char)
    (hy : Spells yy y) (hm : Spells mm m) (hd : Spells dd d) :
    (splitText ' ' (yy ++ '-' :: mm ++ '-' :: dd ++ ' ' :: rest))[0]?.getD [] =
        yy ++ '-' :: mm ++ '-' :: dd ∧
      splitText '-' (yy ++ '-' :: mm ++ '-' :: dd) = [yy, mm, dd] := by
  have hblank : ' ' ∉ yy ++ '-' :: mm ++ '-' :: dd := by
    simp only [List.mem_append, List.mem_cons, not_or]
    exact ⟨⟨hy.notMem (by decide), by decide, hm.notMem (by decide)⟩, by decide,
      hd.notMem (by decide)⟩
  constructor
  · rw [splitText_append hblank]
    rfl
  · rw [List.append_assoc, List.cons_append, splitText_append (hy.notMem (by decide)),
      splitText_append (hm.notMem (by decide)), splitText_clean (hd.notMem (by decide))]

theorem reportV1_asked {yy mm dd : List Char} (ww : List Char) (hy : yy.length = 2)
    (hm : mm.length = 2) (hd : dd.length = 2) :
    reportV1 (yy ++ mm ++ dd ++ ww) = yy ++ '-' :: mm ++ '-' :: dd ++ ' ' :: ww ∧
      (yy ++ mm ++ dd ++ ww).drop 6 = ww := by
  match yy, mm, dd with
  | [y, y'], [m, m'], [d, d'] => exact ⟨rfl, rfl⟩

/-- The date text of a V1 report, in two digits each. -/
theorem readDateV1 {y m d : Nat} {yy mm dd : List Char} (ww : List Char) (hy : Spells yy y)
    (hlen : yy.length = 2) (hm : Spells mm m) (hd : Spells dd d) :
    CalinApiV1.readDate (yy ++ '-' :: mm ++ '-' :: dd ++ ' ' :: ww) =
      (some ((2000 + y : Nat) : ℚ), some (m : ℚ), some (d : ℚ)) := by
  obtain ⟨hblank, hparts⟩ := splitText_date ww hy hm hd
  have hyear : Spells (['2', '0'] ++ yy) (2000 + y) := by
    have happend := spells_twenty.append hy
    rw [hlen] at happend
    exact happend
  unfold CalinApiV1.readDate
  dsimp only
  rw [hblank, hparts]
  exact Prod.ext (toSafeNumberOrNull_spells hyear)
    (Prod.ext (toSafeNumberOrNull_spells hm) (toSafeNumberOrNull_spells hd))

theorem apiV1Faithful_iff (h : (RequestPayload.date year month day).Accepted) :
    ApiV1Faithful year month day ↔ ((askedDate year month day).Valid →
      2000 ≤ askedYear year ∧ askedYear year ≤ 2099) := by
  have hformat := formatDateV1_asked h
  obtain ⟨hy, hm, hm', hd, hd'⟩ := h
  have hmod : askedYear year % 100 ≤ 99 := by omega
  obtain ⟨hreport, hrest⟩ := reportV1_asked
    (padNumber 2 ((weekday (askedDate year month day).dayNumber).toNat : ℚ))
    (padNumber_length hmod) (padNumber_length (by omega : month ≤ 99))
    (padNumber_length (by omega : day ≤ 99))
  have hread := readDateV1 (padNumber 2 ((weekday (askedDate year month day).dayNumber).toNat : ℚ))
    (padNumber_spells _ 2) (padNumber_length hmod) (padNumber_spells month 2)
    (padNumber_spells day 2)
  constructor
  · intro hf hv
    rw [if_pos hv] at hformat
    obtain ⟨-, -, hdate⟩ := hf _ hformat
    rw [hreport, hread] at hdate
    have hyear := Option.some.inj (Prod.mk.inj hdate).1
    have hyear : 2000 + askedYear year % 100 = askedYear year := by exact_mod_cast hyear
    omega
  · intro hcentury wire hwire
    rw [hformat] at hwire
    split at hwire
    next hv =>
      cases hwire
      have heq : 2000 + askedYear year % 100 = askedYear year := by
        have := hcentury hv
        omega
      rw [heq] at hread
      refine ⟨hv, ?_, ?_⟩
      · rw [hrest]
        exact padNumber_spells _ 2
      · rw [hreport, hread]
    next => cases hwire

theorem readDateV2 {y m d : Nat} {yy mm dd : List Char} (rest : List Char) (hy : Spells yy y)
    (hm : Spells mm m) (hd : Spells dd d) :
    CalinApiV2.readDate (yy ++ '-' :: mm ++ '-' :: dd ++ ' ' :: rest) =
      (some (y : ℚ), some (m : ℚ), some (d : ℚ)) := by
  obtain ⟨hblank, hparts⟩ := splitText_date rest hy hm hd
  unfold CalinApiV2.readDate
  dsimp only
  rw [hblank, hparts]
  exact Prod.ext (toSafeNumberOrNull_spells hy)
    (Prod.ext (toSafeNumberOrNull_spells hm) (toSafeNumberOrNull_spells hd))

theorem apiV2Faithful (h : (RequestPayload.date year month day).Accepted) :
    ApiV2Faithful year month day := by
  have hformat := formatDateV2_asked h
  have hmidnight : " 00:00:00".toList = ' ' :: "00:00:00".toList := by decide
  rw [hmidnight] at hformat
  intro wire hwire
  rw [hformat] at hwire
  split at hwire
  next hv =>
    rw [← Except.ok.inj hwire]
    exact ⟨hv, readDateV2 _ (padNumber_spells (askedYear year) 4) (padNumber_spells month 2)
      (padNumber_spells day 2)⟩
  next => cases hwire

theorem acceptAlike_iff (h : (RequestPayload.date year month day).Accepted) :
    AcceptAlike year month day ↔ (askedDate year month day).Valid := by
  unfold AcceptAlike
  rw [encodeDateBytes_asked h, formatDateV1_asked h, formatDateV2_asked h]
  by_cases hv : (askedDate year month day).Valid
  · rw [if_pos hv, if_pos hv]
    exact ⟨fun _ => hv, fun _ => ⟨⟨fun _ => rfl, fun _ => rfl⟩, ⟨fun _ => rfl, fun _ => rfl⟩⟩⟩
  · rw [if_neg hv, if_neg hv]
    exact ⟨fun hf => absurd (hf.1.mp rfl) (by exact nofun), fun h => absurd h hv⟩

end Days

/-- Each plugin sets the date asked for or refuses, and all of them accept the same dates,
just for the dates of the calendar from 2000 to 2099. -/
theorem set_date_faithful {year month day : Nat}
    (h : (RequestPayload.date year month day).Accepted) :
    (ChirpstackFaithful year month day ∧ ApiV1Faithful year month day ∧
      ApiV2Faithful year month day ∧ AcceptAlike year month day) ↔
      (askedDate year month day).Valid ∧ 2000 ≤ askedYear year ∧ askedYear year ≤ 2099 := by
  rw [chirpstackFaithful_iff h, apiV1Faithful_iff h, acceptAlike_iff h]
  constructor
  · exact fun hf => hf.1
  · exact fun hf => ⟨hf, fun _ => hf.2, apiV2Faithful h, hf.1⟩

theorem leapDay_faithful : ChirpstackFaithful 28 2 29 ∧ ApiV1Faithful 28 2 29 ∧
    ApiV2Faithful 28 2 29 ∧ AcceptAlike 28 2 29 :=
  (set_date_faithful (by unfold RequestPayload.Accepted; decide)).mpr (by decide)

/-- The thirtieth of February is sent to a meter, and 1999 is read back as 2099. -/
theorem impossible_date_sent :
    (¬ ∀ year month day, (RequestPayload.date year month day).Accepted →
      ChirpstackFaithful year month day) ∧
    ¬ ∀ year month day, (RequestPayload.date year month day).Accepted →
      ApiV1Faithful year month day := by
  constructor
  · intro h
    have hd : (RequestPayload.date 2026 2 30).Accepted := by
      unfold RequestPayload.Accepted
      decide
    exact absurd ((chirpstackFaithful_iff hd).mp (h _ _ _ hd)).1 (by decide)
  · intro h
    have hd : (RequestPayload.date 1999 12 31).Accepted := by
      unfold RequestPayload.Accepted
      decide
    exact absurd ((apiV1Faithful_iff hd).mp (h _ _ _ hd) (by decide)).1 (by decide)

end DeviceMessaging
