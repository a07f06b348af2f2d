import Rtsp.Header.Common.Division

/-!
# Which accepted dates are well formed

Up to the time of day the parser accepts nothing but what the grammar has, and a
string of the grammar that is accepted is divided by the parser where the grammar
divides it. That leaves the zone, and what is behind it, which nothing looks at
(`wellFormed_iff`).

The hard part is the direction from the grammar. That the parser read a date and the
grammar has it does not give that they mean the same parts: `front_unique` shows that
they do, up to the zone.

From there on they may differ. The parser reads a zone as a run of at most three
letters, or as a sign and whatever `str::parse` takes for a number behind it, and the
grammar has four digits and a list of names. What is read as the zone can be no zone of
the grammar. `EndsWell` is about the parser's division, and the proof shows that no
other could be meant.
-/

namespace Rtsp.Common.Grammar

open Computability Syntax Lib Lib.Abnf

/-- What is read up to the time of day. -/
def FrontText : Reading Char (Nat × Nat × Option Nat) :=
  (GapText true).seq fun _ => DayNameText.seq fun _ => DateText.seq fun _ =>
    (GapText false).seq fun _ => TimeOfDayText

/-! ## What is read is in the grammar -/

theorem mem_anyOf_of_lookup {α : Type} {names : List (Str × α)} {ts : List String} {c : Str} {a : α}
    (hnames : ∀ e ∈ names, ∃ t ∈ ts, e.1 = t.toList.map Char.toLower)
    (h : names.lookup (c.map Char.toLower) = some a) : c ∈ anyOf ts :=
  hnames _ (mem_of_lookup h)

theorem mem_dayName {c rest : Str} {w : Weekday} (h : NameText dayNames c w rest) : c ∈ dayName :=
  mem_anyOf_of_lookup (by decide) h.2

theorem mem_month {c rest : Str} {m : Nat} (h : NameText monthNames c m rest) : c ∈ month :=
  mem_anyOf_of_lookup (by decide) h.2

theorem mem_twoDigits {c rest : Str} {n : Nat} (h : TwoDigits c n rest) : c ∈ digit * digit := by
  obtain ⟨x, y, rfl, hx, hy, -⟩ := h
  exact Language.append_mem_mul (mem_char hx) (mem_char hy)

theorem mem_dayDigits {c rest : Str} {n : Nat} (h : DayText c n rest) : c ∈ digit * opt digit := by
  rcases h with ⟨x, rfl, hx, -⟩ | ⟨x, y, rfl, hx, hy, -⟩
  · exact Language.append_mem_mul (mem_char hx) nil_mem_opt
  · exact Language.append_mem_mul (mem_char hx) (mem_opt (mem_char hy))

theorem mem_yearDigits {c rest : Str} {y : Int} (h : YearText c y rest) :
    c ∈ digit * digit * digit∗ := by
  obtain ⟨hdigits, -, hlen, -⟩ := h
  match c with
  | [] => cases hlen
  | [_] => exact absurd hlen (by simp)
  | a :: b :: s =>
    have hs : s ∈ digit∗ := mem_kstar_char fun x hx => hdigits x (by simp [hx])
    exact Language.append_mem_mul (Language.append_mem_mul (mem_char (hdigits a (by simp)))
      (mem_char (hdigits b (by simp)))) hs

/-- With `[CFWS]` on both sides. -/
theorem mem_surrounded {l : Language Char} {g c g' : Str} (hg : g ∈ opt cfws) (hc : c ∈ l)
    (hg' : g' ∈ opt cfws) : g ++ (c ++ g') ∈ opt cfws * l * opt cfws := by
  rw [← List.append_assoc]
  exact Language.append_mem_mul (Language.append_mem_mul hg hc) hg'

theorem mem_date {c rest g g' : Str} {d : Nat × Nat × Int} (h : DateText c d rest)
    (hg : g ∈ opt cfws) (hg' : g' ∈ opt cfws) : g ++ (c ++ g') ∈ date := by
  obtain ⟨d, _, _, rfl, hd, g₁, _, _, rfl, ⟨-, hg₁, -⟩, m, _, _, rfl, hm, g₂, _, y, rfl,
    ⟨-, hg₂, -⟩, _, hy, -⟩ := h
  have hday : g ++ (d ++ g₁) ∈ day :=
    .inr (mem_surrounded hg (mem_dayDigits hd) (mem_cfws_of_gap hg₁))
  have hyear : g₂ ++ (y ++ g') ∈ year :=
    .inr (mem_surrounded (mem_cfws_of_gap hg₂) (mem_yearDigits hy) hg')
  have hdate : (_ : Str) ∈ date :=
    Language.append_mem_mul (Language.append_mem_mul hday (mem_month hm)) hyear
  simpa only [List.append_assoc] using hdate

theorem mem_timeOfDay {c rest g : Str} {t : Nat × Nat × Option Nat} (h : TimeOfDayText c t rest)
    (hg : g ∈ opt cfws) : c ++ g ∈ timeOfDay := by
  have hcolon : [':'] ∈ colon := rfl
  obtain ⟨hh, _, _, rfl, hhour, _, _, rfl, ⟨g₁, g₂, rfl, hg₁, hg₂⟩ | ⟨h, -⟩, mm, _, s, rfl, hminute,
    _, hsecond, -⟩ := h
  · have hhour : [] ++ (hh ++ g₁) ∈ hour :=
      .inr (mem_surrounded nil_mem_opt (mem_twoDigits hhour) (mem_cfws_of_gap hg₁))
    have hfront := Language.append_mem_mul hhour hcolon
    rcases hsecond with ⟨_, ss, _, rfl, ⟨g₃, g₄, rfl, hg₃, hg₄⟩, hsecond, -⟩ | ⟨rfl, -, -⟩
    · have hminute : g₂ ++ (mm ++ g₃) ∈ minute :=
        .inr (mem_surrounded (mem_cfws_of_gap hg₂) (mem_twoDigits hminute) (mem_cfws_of_gap hg₃))
      have hsecond : g₄ ++ (ss ++ g) ∈ second :=
        .inr (mem_surrounded (mem_cfws_of_gap hg₄) (mem_twoDigits hsecond) hg)
      have htime : (_ : Str) ∈ timeOfDay := Language.append_mem_mul
        (Language.append_mem_mul hfront hminute)
        (mem_opt (Language.append_mem_mul hcolon hsecond))
      simpa only [List.append_assoc, List.cons_append, List.nil_append] using htime
    · have hminute : g₂ ++ (mm ++ g) ∈ minute :=
        .inr (mem_surrounded (mem_cfws_of_gap hg₂) (mem_twoDigits hminute) hg)
      have htime : (_ : Str) ∈ timeOfDay := Language.append_mem_mul
        (Language.append_mem_mul hfront hminute)
        (nil_mem_opt (l := colon * second))
      simpa only [List.append_assoc, List.cons_append, List.nil_append, List.append_nil] using htime
  · cases h

theorem mem_dateTime {c x : Str} {t : Nat × Nat × Option Nat} (h : FrontText c t x)
    (hx : x ∈ zoneEnd) : c ++ x ∈ dateTime := by
  obtain ⟨g₀, _, _, rfl, ⟨-, hg₀, -⟩, n, _, _, rfl, hn, d, _, _, rfl, hd, g, _, s, rfl, ⟨-, hg, -⟩,
    hs⟩ := h
  obtain ⟨_, hpz, r, hr, rfl⟩ := Language.mem_mul.mp hx
  obtain ⟨p, hp, z, hz, rfl⟩ := Language.mem_mul.mp hpz
  have htime := Language.append_mem_mul (mem_timeOfDay hs hp) hz
  have hlead := mem_cfws_of_gap hg₀
  rcases hn with ⟨name, g₁, g₂, w, rfl, hname, hg₁, hg₂, -⟩ | ⟨rfl, -⟩
  · have hname : g₀ ++ (name ++ g₁) ∈ dayOfWeek :=
      .inr (mem_surrounded hlead (mem_dayName hname) (mem_cfws_of_gap hg₁))
    have hcomma : [','] ∈ comma := rfl
    have hdate := mem_date hd (mem_cfws_of_gap hg₂) (mem_cfws_of_gap hg)
    have hfront := Language.append_mem_mul (mem_opt (Language.append_mem_mul hname hcomma)) hdate
    have hall : (_ : Str) ∈ dateTime :=
      Language.append_mem_mul (Language.append_mem_mul hfront htime) hr
    simpa only [List.append_assoc, List.cons_append, List.nil_append] using hall
  · have hdate := mem_date hd hlead (mem_cfws_of_gap hg)
    have hfront := Language.append_mem_mul (nil_mem_opt (l := dayOfWeek * comma)) hdate
    have hall : (_ : Str) ∈ dateTime :=
      Language.append_mem_mul (Language.append_mem_mul hfront htime) hr
    simpa only [List.append_assoc, List.cons_append, List.nil_append] using hall

/-! ## Where the parser divides -/

theorem neutral_of_gap {g rest : Str} (h : Gap g rest) : Neutral g :=
  neutral_of_cfws (mem_cfws_of_gap h)

theorem twoDigits_unique {c c' t t' : Str} {n : Nat} (hc : TwoDigits c n t)
    (hc' : c' ∈ digit * digit) (h : c ++ t = c' ++ t') : t = t' := by
  obtain ⟨x, y, rfl, -⟩ := hc
  obtain ⟨_, ⟨x', rfl, -⟩, _, ⟨y', rfl, -⟩, rfl⟩ := Language.mem_mul.mp hc'
  exact (List.append_inj h rfl).2

theorem startsWith_digits {c : Str} (h : ∀ x ∈ c, x.isDigit = true) (hne : c ≠ []) (t : Str) :
    startsWith opensGap (c ++ t) = false := by
  obtain ⟨x, s, rfl⟩ := List.exists_cons_of_ne_nil hne
  exact not_opensGap_of_isDigit (h x (by simp))

theorem startsWith_letters {c : Str} (h : ∀ x ∈ c, x.isAlpha = true) (hne : c ≠ []) (t : Str) :
    startsWith opensGap (c ++ t) = false := by
  obtain ⟨x, s, rfl⟩ := List.exists_cons_of_ne_nil hne
  exact not_opensGap_of_isAlpha (h x (by simp))

/-- Letters are no digits. -/
theorem digits_ne_letters {c c' t t' : Str} (hc : ∀ x ∈ c, x.isDigit = true) (hne : c ≠ [])
    (hc' : ∀ x ∈ c', x.isAlpha = true) (hne' : c' ≠ []) : c ++ t ≠ c' ++ t' := by
  obtain ⟨x, s, rfl⟩ := List.exists_cons_of_ne_nil hne
  obtain ⟨x', s', rfl⟩ := List.exists_cons_of_ne_nil hne'
  intro h
  have halpha := hc' x' (by simp)
  rw [← (List.cons.inj h).1, not_isAlpha_of_isDigit (hc x (by simp))] at halpha
  cases halpha

theorem digits_of_dayText {c rest : Str} {n : Nat} (h : DayText c n rest) :
    c ≠ [] ∧ ∀ x ∈ c, x.isDigit = true :=
  digits_of_mem (opt_le digit_le) (mem_dayDigits h)

theorem name_of_mem_dayName {n : Str} (h : n ∈ dayName) :
    (∀ c ∈ n, c.isAlpha = true) ∧ n.length = 3 := by
  obtain ⟨halpha, t, ht, hlen⟩ := name_of_anyOf rfl h
  refine ⟨halpha, hlen.trans ?_⟩
  clear hlen
  revert t
  decide

theorem ne_nil_of_length {c : Str} (h : c.length = 3) : c ≠ [] := by
  rintro rfl
  cases h

theorem toMonth_unique {g m t t' : Str} {k : Nat} (hg : Gap g (m ++ t))
    (hm : NameText monthNames m k t) (h : ToMonth (g ++ (m ++ t)) t') : t = t' := by
  obtain ⟨g', m', heq, hg', hm'⟩ := h
  obtain ⟨halpha, hlen⟩ := name_of_mem_month (mem_month hm)
  obtain ⟨halpha', hlen'⟩ := name_of_mem_month hm'
  obtain ⟨-, heq⟩ := (neutral_of_gap hg).unique hg' heq
    (startsWith_letters halpha (ne_nil_of_length hlen) t)
    (startsWith_letters halpha' (ne_nil_of_length hlen') t')
  exact (List.append_inj heq (hlen.trans hlen'.symm)).2

theorem toNumber_unique {c m t t' : Str} {n : Nat} (hc : Colon c (m ++ t)) (hm : TwoDigits m n t)
    (h : ToNumber (c ++ (m ++ t)) t') : t = t' := by
  obtain ⟨g₁, g₂, rfl, hg₁, hg₂⟩ := hc
  obtain ⟨g₁', g₂', m', heq, hg₁', hg₂', hm'⟩ := h
  rw [List.append_assoc] at heq
  obtain ⟨-, heq⟩ := (neutral_of_gap hg₁).unique hg₁' heq rfl rfl
  have heq := (List.cons.inj heq).2
  obtain ⟨hne, hdigits⟩ := digits_of_mem digit_le (mem_twoDigits hm)
  obtain ⟨hne', hdigits'⟩ := digits_of_mem digit_le hm'
  obtain ⟨-, heq⟩ := (neutral_of_gap hg₂).unique hg₂' heq (startsWith_digits hdigits hne t)
    (startsWith_digits hdigits' hne' t')
  exact twoDigits_unique hm hm' heq

theorem toHour_unique {g y g' h t t' : Str} {k : Int} {n : Nat} (hg : Gap g (y ++ (g' ++ (h ++ t))))
    (hy : YearText y k (g' ++ (h ++ t))) (hg' : Gap g' (h ++ t)) (hh : TwoDigits h n t)
    (hs : ToHour (g ++ (y ++ (g' ++ (h ++ t)))) t') : t = t' := by
  obtain ⟨g₁, y', g₂, h', heq, hg₁, hne', hy', hg₂, hh', g₃, u, rfl, hg₃⟩ := hs
  obtain ⟨hydigits, hend, hlen, -⟩ := hy
  have hne : y ≠ [] := by
    rintro rfl
    cases hlen
  obtain ⟨hhne, hhdigits⟩ := digits_of_mem digit_le (mem_twoDigits hh)
  obtain ⟨hhne', hhdigits'⟩ := digits_of_mem digit_le hh'
  obtain ⟨-, heq⟩ := (neutral_of_gap hg).unique hg₁ heq (startsWith_digits hydigits hne _)
    (startsWith_digits hy' hne' _)
  by_cases hempty : g₂ = []
  · -- The hour would be the end of what is read as the year, with the colon next.
    subst hempty
    rw [List.nil_append, ← List.append_assoc y'] at heq
    have hcolon : startsWith Char.isDigit (g₃ ++ ':' :: u) = false :=
      hg₃.startsWith (fun _ => not_opensGap_of_isDigit) rfl
    have hboth : ∀ c ∈ y' ++ h', c.isDigit = true :=
      List.forall_mem_append.mpr ⟨hy', hhdigits'⟩
    obtain ⟨-, heq⟩ := run_unique heq hydigits hboth hend hcolon
    obtain ⟨-, heq⟩ := (neutral_of_gap hg').unique hg₃ heq (startsWith_digits hhdigits hhne t) rfl
    obtain ⟨x, s, rfl⟩ := List.exists_cons_of_ne_nil hhne
    have hx := hhdigits x (by simp)
    rw [(List.cons.inj heq).1] at hx
    cases hx
  · have hend' : startsWith Char.isDigit (g₂ ++ (h' ++ (g₃ ++ ':' :: u))) = false :=
      hg₂.startsWith_of_ne_nil hempty (fun _ => not_opensGap_of_isDigit) _
    obtain ⟨-, heq⟩ := run_unique heq hydigits hy' hend hend'
    obtain ⟨-, heq⟩ := (neutral_of_gap hg').unique hg₂ heq (startsWith_digits hhdigits hhne t)
      (startsWith_digits hhdigits' hhne' _)
    exact twoDigits_unique hh hh' heq

theorem toDay_unique {g n d t t' : Str} {w : Option Weekday} {k : Nat} (hg : Gap g (n ++ (d ++ t)))
    (hn : DayNameText n w (d ++ t)) (hd : DayText d k t) (hend : startsWith Char.isDigit t = false)
    (h : ToDay (g ++ (n ++ (d ++ t))) t') : t = t' := by
  obtain ⟨hdne, hdigits⟩ := digits_of_dayText hd
  obtain ⟨d', hdne', hdigits', hend', h⟩ := h
  have hday : d ++ t = d' ++ t' → t = t' := fun h =>
    (run_unique h hdigits hdigits' hend hend').2
  rcases hn with ⟨name, g₁, g₂, w, rfl, hname, hg₁, hg₂, -⟩ | ⟨rfl, -⟩
  · obtain ⟨halpha, hlen⟩ := name_of_mem_dayName (mem_dayName hname)
    have hne := ne_nil_of_length hlen
    rw [List.append_assoc] at hg h
    rcases h with ⟨g', heq, hg'⟩ | ⟨g', name', g₁', g₂', heq, hg', hname', hg₁', hg₂'⟩
    · obtain ⟨-, heq⟩ := (neutral_of_gap hg).unique hg' heq (startsWith_letters halpha hne _)
        (startsWith_digits hdigits' hdne' _)
      exact absurd heq.symm (digits_ne_letters hdigits' hdne' halpha hne)
    · obtain ⟨halpha', hlen'⟩ := name_of_mem_dayName hname'
      obtain ⟨-, heq⟩ := (neutral_of_gap hg).unique hg' heq (startsWith_letters halpha hne _)
        (startsWith_letters halpha' (ne_nil_of_length hlen') _)
      have heq := (List.append_inj heq (hlen.trans hlen'.symm)).2
      rw [List.append_assoc] at heq
      obtain ⟨-, heq⟩ := (neutral_of_gap hg₁).unique hg₁' heq rfl rfl
      have heq := (List.cons.inj heq).2
      exact hday ((neutral_of_gap hg₂).unique hg₂' heq (startsWith_digits hdigits hdne t)
        (startsWith_digits hdigits' hdne' t')).2
  · rcases h with ⟨g', heq, hg'⟩ | ⟨g', name', g₁', g₂', heq, hg', hname', -⟩
    · exact hday ((neutral_of_gap hg).unique hg' heq (startsWith_digits hdigits hdne t)
        (startsWith_digits hdigits' hdne' t')).2
    · obtain ⟨halpha', hlen'⟩ := name_of_mem_dayName hname'
      have hne' := ne_nil_of_length hlen'
      obtain ⟨-, heq⟩ := (neutral_of_gap hg).unique hg' heq (startsWith_digits hdigits hdne t)
        (startsWith_letters halpha' hne' _)
      rw [List.nil_append] at heq
      exact absurd heq (digits_ne_letters hdigits hdne halpha' hne')

/-- Behind the time of day there is no colon. -/
theorem toNumber_ne_zone {s x g z : Str} (hs : ToNumber s x) (hg : Neutral g)
    (hz : startsWith beginsZone z = true) : s ≠ g ++ z := by
  rintro rfl
  obtain ⟨g', g₂, m, heq, hg', -⟩ := hs
  obtain ⟨c, t, rfl, hc⟩ := startsWith_iff.mp hz
  obtain ⟨-, heq⟩ := hg.unique hg' heq (not_opensGap_of_beginsZone hc) rfl
  rw [(List.cons.inj heq).1] at hc
  cases hc

/-! ## Zones -/

theorem isAlpha_of_isMilitaryZone {c : Char} (h : isMilitaryZone c = true) : c.isAlpha = true := by
  have hascii : c.toNat < 0x80 := by
    simp only [isMilitaryZone, Bool.or_eq_true, Bool.and_eq_true, decide_eq_true_eq] at h
    omega
  exact Str.forall_ascii (P := fun c => isMilitaryZone c = true → c.isAlpha = true)
    (by decide +kernel) hascii h

/-- A named zone is one to three letters. -/
theorem name_of_mem_obsZone {z : Str} (h : z ∈ obsZone) :
    (∀ c ∈ z, c.isAlpha = true) ∧ z ≠ [] ∧ z.length ≤ 3 := by
  rcases h with h | ⟨c, rfl, hc⟩
  · obtain ⟨halpha, t, ht, hlen⟩ := name_of_anyOf rfl h
    have hbounds : 0 < t.toList.length ∧ t.toList.length ≤ 3 := by
      clear hlen
      revert t
      decide
    rw [← hlen] at hbounds
    exact ⟨halpha, List.ne_nil_of_length_pos hbounds.1, hbounds.2⟩
  · exact ⟨by simpa using isAlpha_of_isMilitaryZone hc, by simp, by simp⟩

theorem exists_of_obsZone {z : Str} (h : z ∈ obsZone) : ∃ c t, z = c :: t ∧ c.isAlpha = true := by
  obtain ⟨halpha, hne, -⟩ := name_of_mem_obsZone h
  obtain ⟨c, t, rfl⟩ := List.exists_cons_of_ne_nil hne
  exact ⟨c, t, rfl, halpha c (by simp)⟩

/-- Whitespace or comments, and the beginning of a zone. -/
theorem exists_zone {x : Str} (h : x ∈ zoneEnd) :
    ∃ g z, x = g ++ z ∧ Neutral g ∧ startsWith beginsZone z = true := by
  obtain ⟨_, hfirst, r, -, rfl⟩ := Language.mem_mul.mp h
  obtain ⟨p, hp, z, hz, rfl⟩ := Language.mem_mul.mp hfirst
  have hp := neutral_of_cfws hp
  rcases hz with hz | hz
  · obtain ⟨_, hsigned, ds, -, rfl⟩ := Language.mem_mul.mp hz
    obtain ⟨f, hf, _, ⟨sign, rfl, hsign⟩, rfl⟩ := Language.mem_mul.mp hsigned
    refine ⟨p ++ f, sign :: (ds ++ r), by simp, hp.append (neutral_of_fws hf), ?_⟩
    show (isSign sign || sign.isAlpha) = true
    rw [hsign, Bool.true_or]
  · obtain ⟨c, t, rfl, hc⟩ := exists_of_obsZone hz
    refine ⟨p, c :: (t ++ r), by simp, hp, ?_⟩
    show (c == '+' || c == '-' || c.isAlpha) = true
    rw [hc, Bool.or_true]

/-- **A date of the grammar that is accepted is read up to where the grammar has the zone.** -/
theorem front_unique {c g z x tail : Str} {t : Nat × Nat × Option Nat} {offset : Int}
    (h : FrontText c t (g ++ (z ++ tail))) (hg : Gap g (z ++ tail)) (hz : ZoneText z offset tail)
    (hx : x ∈ zoneEnd) (hs : Division (c ++ (g ++ (z ++ tail))) x) : g ++ (z ++ tail) = x := by
  obtain ⟨zc, zt, hzone, hbegins⟩ := hz.begins
  have hstart : startsWith beginsZone (z ++ tail) = true := by
    rw [hzone]
    exact hbegins
  generalize hrest : g ++ (z ++ tail) = rest at h hs
  obtain ⟨g₀, _, _, rfl, ⟨-, hg₀, -⟩, n, _, _, rfl, hn, d, _, _, rfl, hdate, g₃, _, s, rfl,
    ⟨-, hg₃, hne₃⟩, htime⟩ := h
  obtain ⟨dd, _, _, rfl, hdd, g₁, _, _, rfl, ⟨-, hg₁, hne₁⟩, m, _, _, rfl, hm, g₂, _, y, rfl,
    ⟨-, hg₂, -⟩, _, hy, -⟩ := hdate
  obtain ⟨hh, _, _, rfl, hhour, c₁, _, rfl, hc₁, mm, _, e, rfl, hminute, _, hsecond, -⟩ := htime
  obtain ⟨s₁, s₂, s₃, s₄, h₁, h₂, h₃, h₄, h₅⟩ := hs
  simp only [List.append_assoc] at hg₀ hn hdd hg₁ hm hg₂ hy hg₃ hhour hc₁ hminute hsecond h₁
  have hne₁ : g₁ ≠ [] := hne₁.resolve_left Bool.false_ne_true
  have hc₁ : Colon c₁ (mm ++ (e ++ rest)) := hc₁.resolve_right fun h => Bool.false_ne_true h.1
  have hend := (neutral_of_gap hg₁).startsWith_of_ne_nil hne₁ (fun _ => not_opensGap_of_isDigit)
    (m ++ (g₂ ++ (y ++ (g₃ ++ (hh ++ (c₁ ++ (mm ++ (e ++ rest))))))))
  obtain rfl := toDay_unique hg₀ hn hdd hend h₁
  obtain rfl := toMonth_unique hg₁ hm h₂
  obtain rfl := toHour_unique hg₂ hy hg₃ hhour h₃
  obtain rfl := toNumber_unique hc₁ hminute h₄
  obtain ⟨g', z', rfl, hg', hz'⟩ := exists_zone hx
  rcases hsecond with ⟨c₂, ss, _, rfl, hc₂, hss, -⟩ | ⟨rfl, -, -⟩
  · rw [List.append_assoc] at h₅
    rcases h₅ with h₅ | h₅
    · exact toNumber_unique hc₂ hss h₅
    · obtain ⟨g₄, g₅, rfl, hg₄, hg₅⟩ := hc₂
      have hnumber : ToNumber (g₄ ++ ':' :: g₅ ++ (ss ++ rest)) rest :=
        ⟨g₄, g₅, ss, by simp, neutral_of_gap hg₄, neutral_of_gap hg₅, mem_twoDigits hss⟩
      exact absurd h₅ (toNumber_ne_zone hnumber hg' hz')
  · rcases h₅ with h₅ | h₅
    · exact absurd hrest.symm (toNumber_ne_zone h₅ (neutral_of_gap hg) hstart)
    · exact h₅

/-- Behind a gap and a zone, as they are read, is nothing but comments and whitespace. In figures
    the zone has four digits, and whitespace in front of the sign. -/
def ZoneEnds (g z tail : Str) : Prop := tail ∈ opt cfws ∧
  (startsWith isSign z = true → (∀ c ∈ z.drop 1, c.isDigit = true) ∧ g.getLast? ≠ some ')')

/-- What is read as a gap and a zone ends so. -/
def EndsWell (x : Str) : Prop := ∃ g z tail offset, x = g ++ (z ++ tail) ∧ Gap g (z ++ tail) ∧
  g ≠ [] ∧ ZoneText z offset tail ∧ ZoneEnds g z tail

theorem isMilitaryZone_of_toLower {c : Char}
    (h : ('a' ≤ c.toLower ∧ c.toLower ≤ 'i') ∨ ('k' ≤ c.toLower ∧ c.toLower ≤ 'z')) :
    isMilitaryZone c = true := by
  have hle : c.toLower ≤ 'z' := h.elim (fun h => Char.le_trans h.2 (by decide)) (·.2)
  have hascii := Nat.lt_of_le_of_lt (UInt32.le_iff_toNat_le.mp hle) (by decide : 122 < 0x80)
  exact Str.forall_ascii (P := fun c =>
    ('a' ≤ c.toLower ∧ c.toLower ≤ 'i') ∨ ('k' ≤ c.toLower ∧ c.toLower ≤ 'z') →
      isMilitaryZone c = true) (by decide +kernel) (Str.ascii_of_toLower hascii) h

theorem mem_obsZone {z : Str} {offset : Int} (h : namedZone (z.map Char.toLower) = .ok offset) :
    z ∈ obsZone := by
  unfold namedZone at h
  split at h
  · next hlookup =>
    refine .inl (mem_anyOf_of_lookup ?_ hlookup)
    decide
  · split at h
    · next c hc =>
      split at h
      · next hrange =>
        obtain ⟨d, rfl, rfl⟩ := List.map_eq_singleton_iff.mp hc
        exact .inr (mem_char (isMilitaryZone_of_toLower hrange))
      · cases h
    · cases h

theorem mem_fourDigits {ds : Str} {n : Int} (h : OffsetDigits ds n)
    (hdigits : ∀ c ∈ ds, c.isDigit = true) : ds ∈ digit * digit * digit * digit := by
  cases h with
  | four _ hlen =>
    match ds with
    | [a, b, c, d] =>
      have ha : [a] ∈ digit := mem_char (hdigits a (by simp))
      have hb : [b] ∈ digit := mem_char (hdigits b (by simp))
      have hc : [c] ∈ digit := mem_char (hdigits c (by simp))
      have hd : [d] ∈ digit := mem_char (hdigits d (by simp))
      exact Language.append_mem_mul (Language.append_mem_mul (Language.append_mem_mul ha hb) hc) hd
  | plus _ _ => cases hdigits '+' (by simp)
  | minus _ _ => cases hdigits '-' (by simp)

theorem mem_zoneEnd {x : Str} (h : EndsWell x) : x ∈ zoneEnd := by
  obtain ⟨g, z, tail, offset, rfl, hg, hne, hz, htail, hsigned⟩ := h
  have hgap := mem_cfws_of_gap hg
  rcases hz with ⟨ds, n, hds, hz⟩ | ⟨hname, -⟩
  · obtain ⟨sign, hsign, rfl⟩ : ∃ sign, isSign sign = true ∧ z = sign :: ds := by
      rcases hz with ⟨rfl, -⟩ | ⟨rfl, -⟩
      · exact ⟨'+', rfl, rfl⟩
      · exact ⟨'-', rfl, rfl⟩
    obtain ⟨hdigits, hlast⟩ := hsigned hsign
    obtain ⟨p, hp, f, hf, rfl⟩ := Language.mem_mul.mp (mem_cfws_fws hgap hne hlast)
    have hzone : f ++ [sign] ++ ds ∈ zone :=
      .inl (Language.append_mem_mul (Language.append_mem_mul hf (mem_char hsign))
        (mem_fourDigits hds hdigits))
    have hall : (_ : Str) ∈ zoneEnd :=
      Language.append_mem_mul (Language.append_mem_mul hp hzone) htail
    simpa only [List.append_assoc, List.cons_append, List.nil_append] using hall
  · have hzone : z ∈ zone := .inr (mem_obsZone hname)
    rw [← List.append_assoc]
    exact Language.append_mem_mul (Language.append_mem_mul hgap hzone) htail

theorem not_isAlpha_of_gap {g : Str} (h : g ∈ opt cfws) : startsWith Char.isAlpha g = false := by
  have hstart := (neutral_of_cfws h).startsWith (t := []) (fun _ => not_opensGap_of_isAlpha) rfl
  rwa [List.append_nil] at hstart

/-- A named zone is as long as there are letters, or three. -/
theorem named_unique {z z' tail r : Str} (hz : Run Char.isAlpha 3 z tail)
    (hz' : (∀ c ∈ z', c.isAlpha = true) ∧ z'.length ≤ 3) (hr : r ∈ opt cfws)
    (h : z ++ tail = z' ++ r) : tail = r := by
  rcases List.append_eq_append_iff.mp h with ⟨a, rfl, rfl⟩ | ⟨a, rfl, rfl⟩
  · cases a with
    | nil => rfl
    | cons c a =>
      have hlen := hz'.2
      rw [List.length_append, List.length_cons] at hlen
      obtain ⟨-, hthree | ⟨-, hstop⟩⟩ := hz
      · omega
      · exact absurd (hz'.1 c (by simp)) (Bool.eq_false_iff.mp hstop)
  · cases a with
    | nil => rfl
    | cons c a =>
      have hstop := not_isAlpha_of_gap hr
      exact absurd (hz.1 c (by simp)) (Bool.eq_false_iff.mp hstop)

theorem getLast?_of_fws {p f : Str} (hf : f ∈ fws) : (p ++ f).getLast? ≠ some ')' := by
  have hne := ne_nil_of_mem_fws hf
  have hfolding := forall_of_mem_kstar_char (fws_le hf) _ (List.getLast_mem hne)
  rw [List.getLast?_append, List.getLast?_eq_some_getLast hne]
  intro hlast
  rw [Option.some.inj hlast] at hfolding
  cases hfolding

theorem not_isAlpha_of_isSign {c : Char} (h : isSign c = true) : c.isAlpha = false := by
  rw [isSign, Bool.or_eq_true, beq_iff_eq, beq_iff_eq] at h
  rcases h with rfl | rfl
  · rfl
  · rfl

theorem fourDigits_of_mem {ds : Str} (h : ds ∈ digit * digit * digit * digit) :
    ds.length = 4 ∧ ∀ c ∈ ds, c.isDigit = true := by
  obtain ⟨_, h₃, _, ⟨d, rfl, hd⟩, rfl⟩ := Language.mem_mul.mp h
  obtain ⟨_, h₂, _, ⟨c, rfl, hc⟩, rfl⟩ := Language.mem_mul.mp h₃
  obtain ⟨_, ⟨a, rfl, ha⟩, _, ⟨b, rfl, hb⟩, rfl⟩ := Language.mem_mul.mp h₂
  exact ⟨rfl, by simp [ha, hb, hc, hd]⟩

/-- A sign, and as many characters as the grammar has digits. -/
theorem signed_unique {sign : Char} {t tail ds r : Str} {offset : Int} (hsign : isSign sign = true)
    (hz : ZoneText (sign :: t) offset tail) (hds : ds.length = 4) (h : t ++ tail = ds ++ r) :
    t = ds ∧ tail = r := by
  have hlen : t.length = 4 := by
    rcases hz with ⟨ds, n, hoffset, ⟨heq, -⟩ | ⟨heq, -⟩⟩ | ⟨-, hrun⟩
    · cases heq
      exact (parseI32_of_offsetDigits hoffset).1
    · cases heq
      exact (parseI32_of_offsetDigits hoffset).1
    · have halpha := hrun.1 sign (by simp)
      rw [not_isAlpha_of_isSign hsign] at halpha
      cases halpha
  exact List.append_inj h (hlen.trans hds.symm)

theorem zoneEnds_of_mem {g z tail : Str} {offset : Int} (hg : Gap g (z ++ tail))
    (hz : ZoneText z offset tail) (h : g ++ (z ++ tail) ∈ zoneEnd) : ZoneEnds g z tail := by
  obtain ⟨c, t, rfl, hc⟩ := hz.begins
  obtain ⟨_, hfirst, r, hr, heq⟩ := Language.mem_mul.mp h
  obtain ⟨p, hp, z', hz', rfl⟩ := Language.mem_mul.mp hfirst
  have hend := neutral_of_gap hg
  rcases hz' with hz' | hz'
  · obtain ⟨_, hsigned, ds, hds, rfl⟩ := Language.mem_mul.mp hz'
    obtain ⟨f, hf, _, ⟨sign, rfl, hsign⟩, rfl⟩ := Language.mem_mul.mp hsigned
    have heq : g ++ (c :: t ++ tail) = (p ++ f) ++ sign :: (ds ++ r) := by
      rw [← heq]
      simp
    have hsplit : startsWith opensGap (sign :: (ds ++ r)) = false :=
      not_opensGap_of_beginsZone (congrArg (· || sign.isAlpha) hsign)
    obtain ⟨hgap, heq⟩ := hend.unique ((neutral_of_cfws hp).append (neutral_of_fws hf)) heq
      (not_opensGap_of_beginsZone hc) hsplit
    obtain ⟨rfl, hdigitsEq⟩ := List.cons.inj heq
    obtain ⟨hlen, hdigits⟩ := fourDigits_of_mem hds
    obtain ⟨rfl, rfl⟩ := signed_unique hsign hz hlen hdigitsEq
    refine ⟨hr, fun _ => ⟨hdigits, ?_⟩⟩
    rw [hgap]
    exact getLast?_of_fws hf
  · obtain ⟨halpha, hne', hlen⟩ := name_of_mem_obsZone hz'
    rw [List.append_assoc] at heq
    obtain ⟨-, heq⟩ := hend.unique (neutral_of_cfws hp) heq.symm
      (not_opensGap_of_beginsZone hc) (startsWith_letters halpha hne' r)
    obtain ⟨x, s, rfl⟩ := List.exists_cons_of_ne_nil hne'
    obtain rfl : c = x := (List.cons.inj heq).1
    have hletter := halpha c (by simp)
    have hsign : ¬ isSign c = true := by
      intro hsign
      rw [not_isAlpha_of_isSign hsign] at hletter
      cases hletter
    have hrun : Run Char.isAlpha 3 (c :: t) tail := by
      rcases hz with ⟨ds, n, -, ⟨heq, -⟩ | ⟨heq, -⟩⟩ | ⟨-, hrun⟩
      · cases heq
        exact absurd rfl hsign
      · cases heq
        exact absurd rfl hsign
      · exact hrun
    obtain rfl := named_unique hrun ⟨halpha, hlen⟩ hr heq
    exact ⟨hr, fun h => absurd h hsign⟩

/-- What is read of a date up to the time of day, and behind it. -/
theorem front_of_fields {c rest : Str} {f : Fields} (h : FieldsText c f rest) :
    ∃ c' t g z offset, c = c' ++ (g ++ z) ∧ FrontText c' t (g ++ (z ++ rest)) ∧
      Gap g (z ++ rest) ∧ g ≠ [] ∧ ZoneText z offset rest := by
  obtain ⟨g₀, a₀, _, rfl, hg₀, n, w, _, rfl, hn, d, date, _, rfl, hdate, g₁, a₁, _, rfl, hg₁, time,
    htime, -⟩ := h
  obtain ⟨s, t, _, rfl, hs, g, _, z, rfl, ⟨-, hg, hne⟩, offset, hz, -⟩ := htime
  refine ⟨g₀ ++ (n ++ (d ++ (g₁ ++ s))), t, g, z, offset, by simp, ?_, hg,
    hne.resolve_left Bool.false_ne_true, hz⟩
  simp only [List.append_assoc] at hg₀ hn hdate hg₁ hs
  refine ⟨g₀, a₀, _, rfl, ?_, n, w, _, rfl, ?_, d, date, _, rfl, ?_, g₁, a₁, s, rfl, ?_, hs⟩
  all_goals simpa only [List.append_assoc]

/-- In a date of the grammar the zone ends as it is read. -/
theorem zoneEnds_of_dateTime {c rest : Str} {f : Fields} (h : FieldsText c f rest)
    (hs : c ++ rest ∈ dateTime) : ∃ c' t g z offset, c = c' ++ (g ++ z) ∧
      FrontText c' t (g ++ (z ++ rest)) ∧ Gap g (z ++ rest) ∧ g ≠ [] ∧ ZoneText z offset rest ∧
      ZoneEnds g z rest := by
  obtain ⟨c', t, g, z, offset, rfl, hfront, hg, hne, hz⟩ := front_of_fields h
  obtain ⟨x, hx, hdivision⟩ := exists_division hs
  rw [List.append_assoc, List.append_assoc] at hdivision
  have hrest := front_unique hfront hg hz hx hdivision
  rw [← hrest] at hx
  exact ⟨c', t, g, z, offset, rfl, hfront, hg, hne, hz, zoneEnds_of_mem hg hz hx⟩

/-- **Of the dates that are accepted those are well formed that end well.** -/
theorem wellFormed_iff {chrono : Chrono} {s : Str} {t : DateTime}
    (h : parseDateTime chrono s = .ok t) :
    s ∈ dateTime ↔ FrontText.Behind (fun _ => EndsWell) s := by
  constructor
  · intro hs
    obtain ⟨c, f, rest, rfl, hc, -⟩ := parseDateTime_eq_ok_iff.mp h
    obtain ⟨c', time, g, z, offset, rfl, hfront, hg, hne, hz, hends⟩ := zoneEnds_of_dateTime hc hs
    rw [List.append_assoc, List.append_assoc]
    exact ⟨c', time, _, rfl, hfront, g, z, rest, offset, rfl, hg, hne, hz, hends⟩
  · rintro ⟨c, time, x, rfl, hfront, hx⟩
    exact mem_dateTime hfront (mem_zoneEnd hx)

theorem wellFormed_iff_monday : "Mon, 1 Jan 2018 08:00:00 +0000".toList ∈ dateTime ↔
    FrontText.Behind (fun _ => EndsWell) "Mon, 1 Jan 2018 08:00:00 +0000".toList :=
  @wellFormed_iff proleptic _ ⟨⟨2018, 1, 1, by decide, by decide⟩, 28800, 0, by decide, by decide⟩
    (by decide +kernel)

/-- What is behind the zone is not looked at. -/
theorem not_wellFormed :
    parseDateTime proleptic "1 Jan 2018 08:00:00 +0000 x".toList =
      .ok ⟨⟨2018, 1, 1, by decide, by decide⟩, 28800, 0, by decide, by decide⟩ ∧
    "1 Jan 2018 08:00:00 +0000 x".toList ∉ dateTime := by
  refine ⟨by decide +kernel, fun hs => ?_⟩
  have hparsed : parseFields "1 Jan 2018 08:00:00 +0000 x".toList =
      .ok (⟨none, 1, 1, 2018, 8, 0, some 0, 0⟩, " x".toList) := by decide +kernel
  obtain ⟨c, heq, hc⟩ := (reads_fields _ _ _).mp hparsed
  rw [heq] at hs
  obtain ⟨_, _, _, _, _, -, -, -, -, -, htail, -⟩ := zoneEnds_of_dateTime hc hs
  have hneutral : nesting 0 " x".toList = some 0 := neutral_of_cfws htail
  exact absurd hneutral (by decide)

end Rtsp.Common.Grammar
