import Harvesting.Proofs.Time.Calendar
import Harvesting.Schedule.Grammar

/-!
# The first instant of a schedule

The next instant of a schedule is searched for unit by unit, from years down to seconds. What is found is the
first instant of the schedule that is late enough, and where nothing is found there is none.

* `IsFirst` — the first of what has a property, or nothing has it; `IsFirst.findSome?` — a search through parts
  that are in order;
* `Schedule.Ordered` — values in ascending order; `Schedule.ordered_of_parse?` — every schedule that is written is
  one of them;
* `Schedule.isFirst_timeFrom?`, `Schedule.isFirst_onDate?`, `Schedule.isFirst_from?` — the search for a second of a
  day, an instant of a day, and an instant;
* `Schedule.isFirst_next?` — the result.
-/

namespace Harvesting

/-! ## Firsts -/

/-- The result is the first of what has the property, or there is none and nothing has it. -/
def IsFirst {α : Type} [LE α] (P : α → Prop) : Option α → Prop
  | some a => P a ∧ ∀ b, P b → a ≤ b
  | none => ∀ b, ¬ P b

namespace IsFirst

variable {ι α β : Type} [LE α] [LE β] {P Q : α → Prop} {o : Option α}

theorem congr (h : IsFirst P o) (hPQ : ∀ a, P a ↔ Q a) : IsFirst Q o := by
  obtain rfl : P = Q := funext fun a => propext (hPQ a)
  exact h

/-- Nothing is looked for where nothing can be. -/
theorem guarded {c : Prop} [Decidable c] (hc : c → ∀ a, ¬ P a) (h : ¬ c → IsFirst P o) :
    IsFirst P (if c then none else o) := by
  split
  · next hyes => exact hc hyes
  · next hno => exact h hno

/-- The first among the parts is in the first part that has one. -/
theorem findSome? {P : ι → α → Prop} {f : ι → Option α} {l : List ι} (h : ∀ i ∈ l, IsFirst (P i) (f i))
    (hl : l.Pairwise fun i j => ∀ a b, P i a → P j b → a ≤ b) :
    IsFirst (fun a => ∃ i ∈ l, P i a) (l.findSome? f) := by
  induction l with
  | nil =>
      rintro a ⟨i, hi, -⟩
      cases hi
  | cons i l ih =>
      obtain ⟨hi, hl'⟩ := List.forall_mem_cons.1 h
      obtain ⟨hfirst, hrest⟩ := List.pairwise_cons.1 hl
      have hlater := ih hl' hrest
      rw [List.findSome?_cons]
      cases hfound : f i with
      | some a =>
          rw [hfound] at hi
          refine ⟨⟨i, List.mem_cons_self, hi.1⟩, ?_⟩
          rintro b ⟨j, hj, hb⟩
          rcases List.mem_cons.1 hj with rfl | hj
          · exact hi.2 b hb
          · exact hfirst j hj a b hi.1 hb
      | none =>
          rw [hfound] at hi
          refine hlater.congr fun a => ?_
          simp [hi a]

/-- What is found keeps its place under a map that keeps the order. -/
theorem map {g : α → β} (hg : ∀ a b, a ≤ b → g a ≤ g b) (h : IsFirst P o) :
    IsFirst (fun b => ∃ a, P a ∧ g a = b) (o.map g) := by
  cases o with
  | none =>
      rintro b ⟨a, ha, -⟩
      exact h a ha
  | some a =>
      refine ⟨⟨a, h.1, rfl⟩, ?_⟩
      rintro b ⟨a', ha', rfl⟩
      exact hg a a' (h.2 a' ha')

end IsFirst

namespace Schedule

variable {s : Schedule} {t u : Instant} {least : Nat}

/-! ## Schedules in order -/

/-- The values of each unit are in ascending order, and those of the time of day are ones of a day. -/
structure Ordered (s : Schedule) : Prop where
  seconds : s.seconds.Pairwise (· < ·)
  minutes : s.minutes.Pairwise (· < ·)
  hours : s.hours.Pairwise (· < ·)
  days : s.days.Pairwise (· < ·)
  months : s.months.Pairwise (· < ·)
  years : s.years.Pairwise (· < ·)
  second_lt : ∀ n ∈ s.seconds, n < 60
  minute_lt : ∀ n ∈ s.minutes, n < 60
  hour_lt : ∀ n ∈ s.hours, n < 24

namespace TimeUnit

variable {u : TimeUnit} {vs : List Nat}

/-- Values of the unit, in ascending order. -/
structure Ascending (u : TimeUnit) (vs : List Nat) : Prop where
  pairwise : vs.Pairwise (· < ·)
  le : ∀ n ∈ vs, n ≤ u.greatest

theorem ascending_all (u : TimeUnit) : u.Ascending u.all where
  pairwise := by
    rw [all, between, List.pairwise_map]
    exact List.pairwise_lt_range.imp fun h => by omega
  le n hn := by
    rw [all, between, List.mem_map] at hn
    obtain ⟨k, hk, rfl⟩ := hn
    have hlt := List.mem_range.1 hk
    omega

theorem ascending_singleton {n : Nat} (h : n ≤ u.greatest) : u.Ascending [n] where
  pairwise := List.pairwise_singleton _ _
  le k hk := by
    obtain rfl := List.mem_singleton.1 hk
    exact h

theorem ascending_of_fieldValues? {f : Field} (h : u.fieldValues? f = some vs) : u.Ascending vs := by
  obtain ⟨values, -, h⟩ := Option.bind_eq_some_iff.1 h
  simp only at h
  split at h
  · cases h
    exact ⟨(ascending_all u).pairwise.filter _, fun n hn => (ascending_all u).le n (List.mem_filter.1 hn).1⟩
  · cases h

end TimeUnit

theorem ordered {seconds minutes hours days months weekdays years : List Nat} (hs : TimeUnit.second.Ascending seconds)
    (hm : TimeUnit.minute.Ascending minutes) (hh : TimeUnit.hour.Ascending hours) (hd : TimeUnit.day.Ascending days)
    (hmonths : TimeUnit.month.Ascending months) (hy : TimeUnit.year.Ascending years) :
    (⟨seconds, minutes, hours, days, months, weekdays, years⟩ : Schedule).Ordered where
  seconds := hs.pairwise
  minutes := hm.pairwise
  hours := hh.pairwise
  days := hd.pairwise
  months := hmonths.pairwise
  years := hy.pairwise
  second_lt n hn := Nat.lt_succ_of_le (hs.le n hn)
  minute_lt n hn := Nat.lt_succ_of_le (hm.le n hn)
  hour_lt n hn := Nat.lt_succ_of_le (hh.le n hn)

/-- A reader that is followed by another one. -/
theorem read_bind {α β : Type} {r : Text.Reader α} {f : α → Text.Reader β} {cs : List Char} {out : β × List Char}
    (h : (r >>= f) cs = some out) : ∃ a rest, r cs = some (a, rest) ∧ f a rest = some out := by
  obtain ⟨⟨a, rest⟩, hr, hf⟩ := Option.bind_eq_some_iff.1 h
  exact ⟨a, rest, hr, hf⟩

theorem ascending_of_unitField {u : TimeUnit} {anyDay : Bool} {cs rest : List Char} {vs : List Nat}
    (h : unitField u anyDay cs = some (vs, rest)) : u.Ascending vs := by
  obtain ⟨f, rest', -, h⟩ := read_bind h
  cases hvalues : u.fieldValues? f with
  | none =>
      rw [hvalues] at h
      cases h
  | some values =>
      rw [hvalues] at h
      cases h
      exact TimeUnit.ascending_of_fieldValues? hvalues

theorem ordered_of_fields {cs rest : List Char} (h : fields cs = some (s, rest)) : s.Ordered := by
  obtain ⟨seconds, _, hseconds, h⟩ := read_bind h
  obtain ⟨minutes, _, hminutes, h⟩ := read_bind h
  obtain ⟨hours, _, hhours, h⟩ := read_bind h
  obtain ⟨days, _, hdays, h⟩ := read_bind h
  obtain ⟨months, _, hmonths, h⟩ := read_bind h
  obtain ⟨weekdays, _, -, h⟩ := read_bind h
  obtain ⟨years, _, hyears, h⟩ := read_bind h
  cases h
  refine ordered (ascending_of_unitField hseconds) (ascending_of_unitField hminutes)
    (ascending_of_unitField hhours) (ascending_of_unitField hdays) (ascending_of_unitField hmonths) ?_
  -- without a field for the years, every year is one of the schedule
  rw [Text.Reader.maybe] at hyears
  split at hyears
  · next hread =>
    cases hyears
    exact ascending_of_unitField hread
  · cases hyears
    exact TimeUnit.ascending_all _

theorem ordered_of_ofName? {name : String} (h : ofName? name = some s) : s.Ordered := by
  have hzero (u : TimeUnit) : u.Ascending [0] := TimeUnit.ascending_singleton (Nat.zero_le _)
  have hday : TimeUnit.day.Ascending [1] := TimeUnit.ascending_singleton (by decide)
  have hmonth : TimeUnit.month.Ascending [1] := TimeUnit.ascending_singleton (by decide)
  have hall (u : TimeUnit) := TimeUnit.ascending_all u
  rw [ofName?.eq_def] at h
  simp only at h
  split at h
  · cases h
    exact ordered (hzero _) (hzero _) (hzero _) hday hmonth (hall _)
  · cases h
    exact ordered (hzero _) (hzero _) (hzero _) hday (hall _) (hall _)
  · cases h
    exact ordered (hzero _) (hzero _) (hzero _) (hall _) (hall _) (hall _)
  · cases h
    exact ordered (hzero _) (hzero _) (hzero _) (hall _) (hall _) (hall _)
  · cases h
    exact ordered (hzero _) (hzero _) (hall _) (hall _) (hall _) (hall _)
  · cases h

/-- Whatever a schedule is written as, its values are in order. -/
theorem ordered_of_parse? {text : String} (h : parse? text = some s) : s.Ordered := by
  rcases Option.or_eq_some_iff.1 h with hname | ⟨-, hfields⟩
  · exact ordered_of_ofName? hname
  · rw [Text.Reader.whole?] at hfields
    split at hfields
    · next hread =>
      cases hfields
      exact ordered_of_fields hread
    · cases hfields

/-! ## Times of day -/

/-- Among the seconds of a minute. -/
theorem isFirst_second (hs : s.Ordered) (h m least : Nat) :
    IsFirst (fun sec => sec / 60 = h * 60 + m ∧ sec % 60 ∈ s.seconds ∧ least ≤ sec)
      (s.seconds.findSome? fun sec =>
        let time := h * 3600 + m * 60 + sec
        if time < least then none else some time) := by
  refine (IsFirst.findSome? (P := fun n sec => sec = h * 3600 + m * 60 + n ∧ least ≤ sec) ?_ ?_).congr ?_
  · intro n hn
    apply IsFirst.guarded
    · rintro hlate sec ⟨rfl, hleast⟩
      omega
    · intro hlate
      refine ⟨⟨rfl, by omega⟩, ?_⟩
      rintro sec ⟨rfl, -⟩
      exact Nat.le_refl _
  · refine hs.seconds.imp ?_
    rintro n n' hlt a b ⟨rfl, -⟩ ⟨rfl, -⟩
    omega
  · intro sec
    constructor
    · rintro ⟨n, hn, rfl, hleast⟩
      have hlt := hs.second_lt n hn
      have hmod : (h * 3600 + m * 60 + n) % 60 = n := by omega
      exact ⟨by omega, by rwa [hmod], hleast⟩
    · rintro ⟨hminute, hmem, hleast⟩
      exact ⟨sec % 60, hmem, by omega, hleast⟩

/-- Among the minutes of an hour. -/
theorem isFirst_minute (hs : s.Ordered) (h least : Nat) :
    IsFirst (fun sec => sec / 3600 = h ∧ sec / 60 % 60 ∈ s.minutes ∧ sec % 60 ∈ s.seconds ∧ least ≤ sec)
      (s.minutes.findSome? fun m =>
        if h * 60 + m < least / 60 then none
        else s.seconds.findSome? fun sec =>
          let time := h * 3600 + m * 60 + sec
          if time < least then none else some time) := by
  refine (IsFirst.findSome? (P := fun m sec => sec / 60 = h * 60 + m ∧ sec % 60 ∈ s.seconds ∧ least ≤ sec)
    ?_ ?_).congr ?_
  · intro m hm
    apply IsFirst.guarded
    · rintro hlate sec ⟨hminute, -, hleast⟩
      omega
    · intro _
      exact isFirst_second hs h m least
  · refine hs.minutes.imp ?_
    rintro m m' hlt a b ⟨ha, -⟩ ⟨hb, -⟩
    omega
  · intro sec
    constructor
    · rintro ⟨m, hm, hminute, hmem, hleast⟩
      have hlt := hs.minute_lt m hm
      have hmod : sec / 60 % 60 = m := by omega
      exact ⟨by omega, by rwa [hmod], hmem, hleast⟩
    · rintro ⟨hhour, hm, hmem, hleast⟩
      exact ⟨sec / 60 % 60, hm, by omega, hmem, hleast⟩

/-- The second of a day that is found is the first one of the schedule that is late enough. -/
theorem isFirst_timeFrom? (hs : s.Ordered) (least : Nat) :
    IsFirst (fun sec => s.HasTime sec ∧ least ≤ sec) (s.timeFrom? least) := by
  refine (IsFirst.findSome? (P := fun h sec => sec / 3600 = h ∧ sec / 60 % 60 ∈ s.minutes ∧ sec % 60 ∈ s.seconds ∧
    least ≤ sec) ?_ ?_).congr ?_
  · intro h hh
    apply IsFirst.guarded
    · rintro hlate sec ⟨hhour, -, -, hleast⟩
      omega
    · intro _
      exact isFirst_minute hs h least
  · refine hs.hours.imp ?_
    rintro h h' hlt a b ⟨ha, -⟩ ⟨hb, -⟩
    omega
  · intro sec
    constructor
    · rintro ⟨h, hh, rfl, hm, hmem, hleast⟩
      exact ⟨⟨hh, hm, hmem⟩, hleast⟩
    · rintro ⟨⟨hh, hm, hmem⟩, hleast⟩
      exact ⟨_, hh, rfl, hm, hmem, hleast⟩

theorem HasTime.lt (hs : s.Ordered) {sec : Nat} (h : s.HasTime sec) : sec < 86400 := by
  have hlt := hs.hour_lt _ h.1
  omega

/-! ## Days -/

theorem day_le (h : t.secs ≤ u.secs) : t.day ≤ u.day := by
  rw [Instant.day, Instant.day, Instant.secsPerDay]
  omega

/-- An instant of an earlier date is an earlier one. -/
theorem secs_lt_of_before (h : (Date.ofDays t.day).Before (Date.ofDays u.day)) : t.secs < u.secs := by
  have hlt := Date.toDays_lt (Date.valid_ofDays t.day) (Date.valid_ofDays u.day) h
  rw [Date.toDays_ofDays, Date.toDays_ofDays] at hlt
  by_cases hle : u.secs ≤ t.secs
  · have hday := day_le hle
    omega
  · omega

theorem le_of_secs (hu : u.nanos = 0) (h : u.secs ≤ t.secs) : u ≤ t := by
  rcases Int.lt_or_eq_of_le h with hlt | heq
  · exact .inl hlt
  · exact .inr ⟨heq, by omega⟩

/-- The instants of the schedule on a date that are late enough. -/
def On (s : Schedule) (t : Instant) (d : Date) (u : Instant) : Prop :=
  Date.ofDays u.day = d ∧ s.Fires u ∧ t.secs ≤ u.secs

theorem On.le_of_before {d d' : Date} {v : Instant} (hd : d.Before d') (hu : s.On t d u) (hv : s.On t d' v) :
    u ≤ v := by
  obtain ⟨rfl, ⟨-, -, hnanos⟩, -⟩ := hu
  obtain ⟨rfl, -, -⟩ := hv
  exact le_of_secs hnanos (Int.le_of_lt (secs_lt_of_before hd))

theorem parts_secs (t : Instant) : t.day * Instant.secsPerDay + t.secOfDay.toNat = t.secs := by
  rw [Instant.day, Instant.secOfDay, Instant.secsPerDay]
  omega

/-- A day and a second of it, put together and found again. -/
theorem of_day (hs : s.Ordered) (day : Int) {time : Nat} (htime : s.HasTime time) :
    (⟨day * Instant.secsPerDay + time, 0⟩ : Instant).day = day ∧
      (⟨day * Instant.secsPerDay + time, 0⟩ : Instant).secOfDay.toNat = time := by
  have hlt := htime.lt hs
  simp only [Instant.day, Instant.secOfDay, Instant.secsPerDay]
  omega

/-- The second from which a day is searched is the one at which it is late enough. -/
theorem least_le_iff {day : Int} {time : Nat} (hday : t.day ≤ day) :
    (if day = t.day then t.secOfDay.toNat else 0) ≤ time ↔ t.secs ≤ day * Instant.secsPerDay + time := by
  have hparts := parts_secs t
  have hlt : t.secOfDay.toNat < 86400 := by
    rw [Instant.secOfDay, Instant.secsPerDay]
    omega
  rw [Instant.secsPerDay] at hparts ⊢
  by_cases hfirst : day = t.day
  · rw [if_pos hfirst, hfirst]
    omega
  · rw [if_neg hfirst]
    omega

/-- The instant that is found on a date is the first one of the schedule that is late enough. -/
theorem isFirst_onDate? (hs : s.Ordered) (t : Instant) (d : Date) :
    IsFirst (s.On t d) (s.onDate? t.day t.secOfDay.toNat d) := by
  apply IsFirst.guarded
  · rintro hno u ⟨rfl, hfires, hlate⟩
    have hday := day_le hlate
    rw [Date.toDays_ofDays] at hno
    rcases hno with hno | hno
    · exact hno hfires.1
    · omega
  · intro hyes
    obtain ⟨hdate, hday⟩ := not_or.1 hyes
    have hdate := Decidable.not_not.1 hdate
    have hday : t.day ≤ d.toDays := Int.not_lt.1 hday
    have hvalid : d.Valid := hdate.2.2.2.2
    have hmono (a b : Nat) (hab : a ≤ b) : (⟨d.toDays * Instant.secsPerDay + a, 0⟩ : Instant) ≤
        ⟨d.toDays * Instant.secsPerDay + b, 0⟩ := le_of_secs rfl (by simp only; omega)
    refine ((isFirst_timeFrom? hs _).map hmono).congr fun u => ⟨?_, ?_⟩
    · rintro ⟨time, ⟨htime, hleast⟩, rfl⟩
      obtain ⟨hof, hsec⟩ := of_day hs d.toDays htime
      refine ⟨?_, ⟨?_, ?_, rfl⟩, ?_⟩
      · rw [hof, Date.ofDays_toDays hvalid]
      · rwa [hof, Date.ofDays_toDays hvalid]
      · rwa [hsec]
      · exact (least_le_iff hday).1 hleast
    · rintro ⟨rfl, ⟨-, htime, hnanos⟩, hlate⟩
      rw [Date.toDays_ofDays] at hday
      refine ⟨u.secOfDay.toNat, ⟨htime, ?_⟩, ?_⟩
      · rw [Date.toDays_ofDays, least_le_iff hday, parts_secs]
        exact hlate
      · rw [Date.toDays_ofDays, parts_secs, ← hnanos]

/-! ## Years, months and days -/

/-- The instant that is found is the first one of the schedule that is late enough. -/
theorem isFirst_from? (hs : s.Ordered) (hyear : 0 ≤ (Date.ofDays t.day).year) :
    IsFirst (fun u => s.Fires u ∧ t.secs ≤ u.secs) (s.from? t) := by
  -- no date that is found comes before that of `t`
  have hnot {u : Instant} (hlate : t.secs ≤ u.secs) : ¬ (Date.ofDays u.day).Before (Date.ofDays t.day) := by
    intro hbefore
    have hlt := secs_lt_of_before hbefore
    omega
  have hdays (y m : Nat) : IsFirst (fun u => ∃ d ∈ s.days, s.On t ⟨y, m, d⟩ u)
      (s.days.findSome? fun d => s.onDate? t.day t.secOfDay.toNat ⟨y, m, d⟩) := by
    refine IsFirst.findSome? (fun d _ => isFirst_onDate? hs t ⟨y, m, d⟩) (hs.days.imp ?_)
    intro d d' hlt a b
    exact On.le_of_before (.inr ⟨rfl, .inr ⟨rfl, hlt⟩⟩)
  have hmonths (y : Nat) : IsFirst (fun u => ∃ m ∈ s.months, ∃ d ∈ s.days, s.On t ⟨y, m, d⟩ u)
      (s.months.findSome? fun m =>
        if (y : Int) = (Date.ofDays t.day).year ∧ m < (Date.ofDays t.day).month then none
        else s.days.findSome? fun d => s.onDate? t.day t.secOfDay.toNat ⟨y, m, d⟩) := by
    refine IsFirst.findSome? (fun m _ => IsFirst.guarded ?_ fun _ => hdays y m) (hs.months.imp ?_)
    · rintro ⟨hsame, hlt⟩ u ⟨d, -, hdate, -, hlate⟩
      refine hnot hlate (.inr ⟨?_, .inl ?_⟩)
      · rw [hdate, hsame]
      · rw [hdate]
        exact hlt
    · rintro m m' hlt a b ⟨d, -, ha⟩ ⟨d', -, hb⟩
      have hbefore : Date.Before ⟨y, m, d⟩ ⟨y, m', d'⟩ := .inr ⟨rfl, .inl hlt⟩
      exact On.le_of_before hbefore ha hb
  have hyears : IsFirst (fun u => ∃ y ∈ s.years, ∃ m ∈ s.months, ∃ d ∈ s.days, s.On t ⟨(y : Nat), m, d⟩ u)
      (s.from? t) := by
    rw [from?, if_neg (Int.not_lt.2 hyear)]
    refine IsFirst.findSome? (fun y _ => IsFirst.guarded ?_ fun _ => hmonths y) (hs.years.imp ?_)
    · rintro hlt u ⟨m, -, d, -, hdate, -, hlate⟩
      refine hnot hlate (.inl ?_)
      rw [hdate]
      exact hlt
    · rintro y y' hlt a b ⟨m, -, d, -, ha⟩ ⟨m', -, d', -, hb⟩
      have hbefore : Date.Before ⟨y, m, d⟩ ⟨y', m', d'⟩ := .inl (Int.ofNat_lt.2 hlt)
      exact On.le_of_before hbefore ha hb
  refine hyears.congr fun u => ⟨?_, ?_⟩
  · rintro ⟨y, -, m, -, d, -, -, hfires, hlate⟩
    exact ⟨hfires, hlate⟩
  · rintro ⟨hfires, hlate⟩
    obtain ⟨⟨hpos, hy⟩, hm, hd, -⟩ := hfires.1
    refine ⟨_, hy, _, hm, _, hd, ?_, hfires, hlate⟩
    rw [Int.toNat_of_nonneg hpos]

/--
The next instant of a schedule that was read from a text is the first one of its instants that is at least a
second later, as far as whole seconds go; where there is none, the schedule is over.
-/
theorem isFirst_next? {text : String} (h : parse? text = some s) {now : Instant}
    (hyear : 0 ≤ (Date.ofDays (now.shift Instant.nanosPerSec).day).year) :
    IsFirst (fun u => s.Fires u ∧ (now.shift Instant.nanosPerSec).secs ≤ u.secs) (s.next? now) :=
  isFirst_from? (ordered_of_parse? h) hyear

end Schedule

end Harvesting
