import ChainClient.Proofs.Text.Digits
import ChainClient.Time.Duration
import Mathlib.Data.List.TakeWhile

/-!
# Which texts are durations

A component of a text is a count in digits and, directly behind it, the name of a unit in letters.
Components in a row amount to their sum, whether white space is between them or not. The reader
takes exactly the texts that are components in a row once the white space at their ends is removed:
it takes the longest count and the longest name that it finds, and neither can go on into the next
component. A sum that needs more than 64 bits is reported as such, at the component where it first
does.
-/

namespace ChainClient.Duration

open Text (Stops)

/-! ## Texts -/

/-- One or more digits and, directly behind them, one or more letters that name a unit. -/
inductive IsComponent : List Char → Nat → Prop
  | mk {digits unit : List Char} {size : Nat} (hdigits : digits ≠ [])
    (hdecimal : ∀ c ∈ digits, Text.Decimal.isDigit c = true) (hunit : unit ≠ [])
    (hletters : ∀ c ∈ unit, c.isAlpha = true)
    (hsize : unitMillis? (String.ofList unit) = some size) :
    IsComponent (digits ++ unit) (Nat.ofDigitChars 10 digits 0 * size)

/-- One or more components in a row, with or without white space between them, and the sum of
their milliseconds. -/
inductive AmountsTo : List Char → Nat → Prop
  | single {text : List Char} {value : Nat} (htext : IsComponent text value) : AmountsTo text value
  | cons {text blanks rest : List Char} {value total : Nat} (htext : IsComponent text value)
    (hblanks : ∀ c ∈ blanks, Text.isBlank c = true) (hrest : AmountsTo rest total) :
    AmountsTo (text ++ (blanks ++ rest)) (value + total)

variable {cs text blanks rest : List Char} {value total sum count size fuel : Nat} {s : String}

/-- The letters and digits are checked by evaluation. -/
theorem IsComponent.of_all {digits unit : List Char} (hdigits : digits ≠ [] ∧ unit ≠ [])
    (hdecimal : digits.all Text.Decimal.isDigit = true) (hletters : unit.all Char.isAlpha = true)
    (hsize : unitMillis? (String.ofList unit) = some size) :
    IsComponent (digits ++ unit) (Nat.ofDigitChars 10 digits 0 * size) :=
  .mk hdigits.1 (List.all_eq_true.1 hdecimal) hdigits.2 (List.all_eq_true.1 hletters) hsize

/-- A component starts with a digit. -/
theorem IsComponent.exists_cons (h : IsComponent text value) :
    ∃ c behind, text = c :: behind ∧ Text.Decimal.isDigit c = true := by
  cases h with
  | @mk digits unit _ hdigits hdecimal =>
    obtain ⟨c, digits, rfl⟩ := List.exists_cons_of_ne_nil hdigits
    exact ⟨c, digits ++ unit, List.cons_append, hdecimal c List.mem_cons_self⟩

/-- A component ends with a letter. -/
theorem IsComponent.exists_append (h : IsComponent text value) :
    ∃ front c, text = front ++ [c] ∧ c.isAlpha = true := by
  cases h with
  | @mk digits unit _ _ _ hunit hletters =>
    refine ⟨digits ++ unit.dropLast, unit.getLast hunit, ?_, hletters _ (List.getLast_mem hunit)⟩
    rw [List.append_assoc, List.dropLast_concat_getLast]

theorem AmountsTo.exists_cons (h : AmountsTo cs total) :
    ∃ c behind, cs = c :: behind ∧ Text.Decimal.isDigit c = true := by
  cases h with
  | single htext => exact htext.exists_cons
  | @cons text blanks rest _ _ htext =>
    obtain ⟨c, behind, rfl, hc⟩ := htext.exists_cons
    exact ⟨c, behind ++ (blanks ++ rest), List.cons_append, hc⟩

theorem AmountsTo.exists_append (h : AmountsTo cs total) :
    ∃ front c, cs = front ++ [c] ∧ c.isAlpha = true := by
  induction h with
  | single htext => exact htext.exists_append
  | @cons text blanks _ _ _ _ _ _ ih =>
    obtain ⟨front, c, rfl, hc⟩ := ih
    exact ⟨text ++ (blanks ++ front), c, by simp only [List.append_assoc], hc⟩

/-- An amount does not start with a blank, so trimming leaves it alone there. -/
theorem AmountsTo.stops_isBlank (h : AmountsTo cs total) : Stops Text.isBlank cs := by
  obtain ⟨c, behind, rfl, hc⟩ := h.exists_cons
  exact Text.stops_cons (Text.isBlank_of_isAlphanum (Text.isAlphanum_of_isDigit hc))

/-- Components have no white space at their ends. -/
theorem AmountsTo.trim_eq (h : AmountsTo cs total) : Text.trim cs = cs := by
  obtain ⟨front, c, hcs, hc⟩ := h.exists_append
  apply Text.trim_eq_self h.stops_isBlank
  rw [hcs, List.reverse_append]
  exact Text.stops_cons (Text.isBlank_of_isAlphanum (Text.isAlphanum_of_isAlpha hc))

/-- No letter comes directly behind a component. -/
theorem AmountsTo.stops_isAlpha (h : AmountsTo rest total)
    (hblanks : ∀ c ∈ blanks, Text.isBlank c = true) : Stops Char.isAlpha (blanks ++ rest) := by
  cases blanks with
  | nil =>
    obtain ⟨c, behind, rfl, hc⟩ := h.exists_cons
    refine Text.stops_cons (Bool.eq_false_iff.2 fun halpha ↦ ?_)
    rw [Text.isDigit_of_isAlpha halpha] at hc
    cases hc
  | cons c blanks =>
    refine Text.stops_cons (Bool.eq_false_iff.2 fun halpha ↦ ?_)
    have hc := Text.isBlank_of_isAlphanum (Text.isAlphanum_of_isAlpha halpha)
    rw [hblanks c List.mem_cons_self] at hc
    cases hc

/-- Blanks in front of an amount are skipped and nothing of the amount is. -/
theorem AmountsTo.skipBlank_append (h : AmountsTo rest total)
    (hblanks : ∀ c ∈ blanks, Text.isBlank c = true) : Text.skipBlank (blanks ++ rest) = rest :=
  Text.dropWhile_run hblanks h.stops_isBlank

/-! ## The front of a text -/

/-- No unit is empty, so a component of nothing is only a count of zero. -/
theorem unitMillis?_pos {unit : String} (h : unitMillis? unit = some size) : 0 < size := by
  have hsizes : ∀ n ∈ [1, perSecond, perMinute, perHour, perDay], 0 < n := by decide
  apply hsizes
  unfold unitMillis? at h
  repeat' split at h
  all_goals simp_all

/-- The longest count at the front of a text, the longest name of a unit behind it, and the rest. -/
structure Begins (cs : List Char) (count size : Nat) (rest : List Char) : Prop where
  count_eq : Text.Decimal.numeral? 10 (cs.takeWhile Text.Decimal.isDigit) = some count
  size_eq : unitMillis? (String.ofList
    ((cs.dropWhile Text.Decimal.isDigit).takeWhile Char.isAlpha)) = some size
  rest_eq : (cs.dropWhile Text.Decimal.isDigit).dropWhile Char.isAlpha = rest

/-- The reader finds a component whole if no letter follows it. -/
theorem IsComponent.exists_begins (h : IsComponent text value) (hrest : Stops Char.isAlpha rest) :
    ∃ count size, Begins (text ++ rest) count size rest ∧ count * size = value := by
  cases h with
  | @mk digits unit size hdigits hdecimal hunit hletters hsize =>
    have hstops : Stops Text.Decimal.isDigit (unit ++ rest) := by
      obtain ⟨u, us, rfl⟩ := List.exists_cons_of_ne_nil hunit
      exact Text.stops_cons (Text.isDigit_of_isAlpha (hletters u List.mem_cons_self))
    refine ⟨Nat.ofDigitChars 10 digits 0, size, ⟨?_, ?_, ?_⟩, rfl⟩
    · rw [List.append_assoc, Text.takeWhile_run hdecimal hstops]
      exact Text.Decimal.numeral?_eq_some_iff_digits.2 ⟨hdigits, hdecimal, rfl⟩
    · rw [List.append_assoc, Text.dropWhile_run hdecimal hstops, Text.takeWhile_run hletters hrest]
      exact hsize
    · rw [List.append_assoc, Text.dropWhile_run hdecimal hstops, Text.dropWhile_run hletters hrest]

/-- What the reader finds in front is a component. -/
theorem Begins.exists_component (h : Begins cs count size rest) :
    ∃ text, IsComponent text (count * size) ∧ cs = text ++ rest := by
  obtain ⟨hdigits, hdecimal, rfl⟩ := Text.Decimal.numeral?_eq_some_iff_digits.1 h.count_eq
  have hunit : (cs.dropWhile Text.Decimal.isDigit).takeWhile Char.isAlpha ≠ [] := by
    intro hnil
    have hsize := h.size_eq
    rw [hnil] at hsize
    cases hsize
  refine ⟨_, .mk hdigits hdecimal hunit (fun c ↦ List.mem_takeWhile_imp) h.size_eq, ?_⟩
  rw [← h.rest_eq, List.append_assoc, List.takeWhile_append_dropWhile,
    List.takeWhile_append_dropWhile]

/-- The first of the components, and what is left for the others. -/
theorem AmountsTo.exists_begins (h : AmountsTo cs total) : ∃ count size rest,
    Begins cs count size rest ∧ (rest = [] ∧ total = count * size ∨
      ∃ blanks others sum, rest = blanks ++ others ∧ (∀ c ∈ blanks, Text.isBlank c = true) ∧
        AmountsTo others sum ∧ total = count * size + sum) := by
  cases h with
  | single htext =>
    obtain ⟨count, size, hbegins, rfl⟩ := htext.exists_begins Text.stops_nil
    rw [List.append_nil] at hbegins
    exact ⟨count, size, [], hbegins, .inl ⟨rfl, rfl⟩⟩
  | @cons text blanks others _ sum htext hblanks hothers =>
    obtain ⟨count, size, hbegins, rfl⟩ := htext.exists_begins (hothers.stops_isAlpha hblanks)
    exact ⟨count, size, blanks ++ others, hbegins,
      .inr ⟨blanks, others, sum, rfl, hblanks, hothers, rfl⟩⟩

/-- A text begins with one component at the most, since digits and letters are taken as far as they
go. -/
theorem Begins.unique {count' size' : Nat} {rest' : List Char} (h : Begins cs count size rest)
    (h' : Begins cs count' size' rest') : count = count' ∧ size = size' ∧ rest = rest' :=
  ⟨Option.some.inj (h.count_eq.symm.trans h'.count_eq),
    Option.some.inj (h.size_eq.symm.trans h'.size_eq), h.rest_eq.symm.trans h'.rest_eq⟩

/-- However a text is divided into components, it amounts to the same. -/
theorem AmountsTo.unique {total' : Nat} (h : AmountsTo cs total) (h' : AmountsTo cs total') :
    total = total' := by
  induction h generalizing total' with
  | single htext =>
    obtain ⟨_, _, hbegins, rfl⟩ := htext.exists_begins Text.stops_nil
    rw [List.append_nil] at hbegins
    obtain ⟨_, _, _, hbegins', hrest⟩ := h'.exists_begins
    obtain ⟨rfl, rfl, rfl⟩ := hbegins.unique hbegins'
    rcases hrest with ⟨-, rfl⟩ | ⟨blanks, others, sum, hnil, -, hothers, -⟩
    · rfl
    · obtain ⟨c, behind, rfl, -⟩ := hothers.exists_cons
      simp at hnil
  | @cons _ blanks others _ _ htext hblanks hothers ih =>
    obtain ⟨_, _, hbegins, rfl⟩ := htext.exists_begins (hothers.stops_isAlpha hblanks)
    obtain ⟨_, _, _, hbegins', hrest⟩ := h'.exists_begins
    obtain ⟨rfl, rfl, rfl⟩ := hbegins.unique hbegins'
    rcases hrest with ⟨hnil, -⟩ | ⟨blanks', others', sum', heq, hblanks', hothers', rfl⟩
    · obtain ⟨c, behind, rfl, -⟩ := hothers.exists_cons
      simp at hnil
    · have hskip := congrArg Text.skipBlank heq
      rw [hothers.skipBlank_append hblanks, hothers'.skipBlank_append hblanks'] at hskip
      subst hskip
      rw [ih hothers']

/-! ## Reading -/

theorem addComponents_nil : addComponents fuel total [] = .ok total := by
  cases fuel <;> rfl

/-- One component is added, behind white space. -/
theorem addComponents_of_begins (hskip : Text.skipBlank (blanks ++ cs) = cs)
    (h : Begins cs count size rest) :
    addComponents (fuel + 1) total (blanks ++ cs) =
      if total + count * size < UInt64.size then addComponents fuel (total + count * size) rest
      else .error .overflow := by
  have hle := Nat.le_mul_of_pos_right count (unitMillis?_pos h.size_eq)
  rw [addComponents, hskip]
  split
  case h_1 =>
    -- There is no count in front of nothing.
    have hcount := h.count_eq
    cases hcount
  case h_2 =>
    simp only [h.count_eq, h.size_eq, h.rest_eq]
    split
    case isTrue hcount => rw [if_neg (by omega)]
    case isFalse =>
      split
      case isTrue htotal => rw [if_neg (Nat.not_lt.2 htotal)]
      case isFalse htotal => rw [if_pos (Nat.lt_of_not_le htotal)]

/-- The components of a text are added one after the other. -/
theorem addComponents_of_amountsTo (h : AmountsTo cs value)
    (hblanks : ∀ c ∈ blanks, Text.isBlank c = true) (hfuel : cs.length < fuel) :
    addComponents fuel total (blanks ++ cs) =
      if total + value < UInt64.size then .ok (total + value) else .error .overflow := by
  induction h generalizing fuel total blanks with
  | single htext =>
    obtain ⟨fuel, rfl⟩ := Nat.exists_eq_add_of_le' (Nat.lt_of_le_of_lt (Nat.zero_le _) hfuel)
    obtain ⟨count, size, hbegins, rfl⟩ := htext.exists_begins Text.stops_nil
    rw [List.append_nil] at hbegins
    rw [addComponents_of_begins ((AmountsTo.single htext).skipBlank_append hblanks) hbegins,
      addComponents_nil]
  | @cons text blanks' others value sum htext hblanks' hothers ih =>
    obtain ⟨fuel, rfl⟩ := Nat.exists_eq_add_of_le' (Nat.lt_of_le_of_lt (Nat.zero_le _) hfuel)
    obtain ⟨count, size, hbegins, rfl⟩ := htext.exists_begins (hothers.stops_isAlpha hblanks')
    have hskip := (AmountsTo.cons htext hblanks' hothers).skipBlank_append hblanks
    have hshorter : others.length < fuel := by
      obtain ⟨c, behind, rfl, -⟩ := htext.exists_cons
      simp only [List.length_append, List.length_cons] at hfuel
      omega
    rw [addComponents_of_begins hskip hbegins, ih hblanks' hshorter, Nat.add_assoc]
    split
    case isTrue => rfl
    case isFalse => rw [if_neg (by omega)]

/-- One round of the reader: the text is at its end, or it begins with a component that is added. -/
theorem begins_of_addComponents (h : addComponents (fuel + 1) total cs = .ok sum) :
    (Text.skipBlank cs = [] ∧ sum = total) ∨ ∃ count size rest,
      Begins (Text.skipBlank cs) count size rest ∧
        addComponents fuel (total + count * size) rest = .ok sum := by
  rw [addComponents] at h
  split at h
  case h_1 hnil => exact .inl ⟨hnil, (Except.ok.inj h).symm⟩
  case h_2 =>
    dsimp only at h
    split at h
    case h_1 => cases h
    case h_2 count hcount =>
      split at h
      case isTrue => cases h
      case isFalse =>
        split at h
        case h_1 => cases h
        case h_2 size hsize =>
          split at h
          case isTrue => cases h
          case isFalse => exact .inr ⟨count, size, _, ⟨hcount, hsize, rfl⟩, h⟩

/-- A text without white space at its end is components in a row if it is read at all. -/
theorem amountsTo_of_addComponents (hend : Stops Text.isBlank cs.reverse) (hfuel : cs.length < fuel)
    (h : addComponents fuel total cs = .ok sum) :
    (cs = [] ∧ sum = total) ∨ ∃ blanks text value, cs = blanks ++ text ∧
      (∀ c ∈ blanks, Text.isBlank c = true) ∧ AmountsTo text value ∧ sum = total + value := by
  induction fuel generalizing cs total with
  | zero => cases hfuel
  | succ fuel ih =>
    have hcs : cs.takeWhile Text.isBlank ++ Text.skipBlank cs = cs :=
      List.takeWhile_append_dropWhile
    have hblanks : ∀ c ∈ cs.takeWhile Text.isBlank, Text.isBlank c = true :=
      fun c ↦ List.mem_takeWhile_imp
    rcases begins_of_addComponents h with ⟨hnil, hsum⟩ | ⟨count, size, rest, hbegins, hnext⟩
    · -- A text of white space alone would have some at its end.
      have hall : ∀ c ∈ cs.reverse, Text.isBlank c = true := fun c hc ↦
        List.dropWhile_eq_nil_iff.1 hnil c (List.mem_reverse.1 hc)
      have hrun : (cs.reverse ++ []).takeWhile Text.isBlank = cs.reverse :=
        Text.takeWhile_run hall Text.stops_nil
      rw [List.append_nil, hend] at hrun
      exact .inl ⟨List.reverse_eq_nil_iff.1 hrun.symm, hsum⟩
    · obtain ⟨text, htext, hskip⟩ := hbegins.exists_component
      rw [hskip] at hcs
      obtain ⟨c, behind, htext', -⟩ := htext.exists_cons
      have hlength := congrArg List.length hcs
      rw [htext'] at hlength
      simp only [List.length_append, List.length_cons] at hlength
      have hend' : Stops Text.isBlank rest.reverse := by
        rw [← hcs, List.reverse_append, List.reverse_append, List.append_assoc] at hend
        exact hend.of_append
      rcases ih hend' (by omega) hnext with
        ⟨rfl, rfl⟩ | ⟨blanks, others, value, rfl, hothers, hvalue, rfl⟩
      · rw [List.append_nil] at hcs
        exact .inr ⟨_, text, _, hcs.symm, hblanks, .single htext, rfl⟩
      · exact .inr ⟨_, _, _, hcs.symm, hblanks, .cons htext hothers hvalue, Nat.add_assoc _ _ _⟩

/-- A text that amounts to something is read if the sum has 64 bits, and overflows otherwise. -/
theorem ofText_of_amountsTo (h : AmountsTo (Text.trim s.toList) total) :
    ofText s = if total < UInt64.size then .ok ⟨.ofNat total⟩ else .error .overflow := by
  have hread : addComponents ((Text.trim s.toList).length + 1) 0 ([] ++ Text.trim s.toList) = _ :=
    addComponents_of_amountsTo h (List.forall_mem_nil _) (Nat.lt_succ_self _)
  rw [List.nil_append, Nat.zero_add] at hread
  obtain ⟨c, behind, hcons, -⟩ := h.exists_cons
  unfold ofText
  split
  case h_1 hnil =>
    rw [hnil] at hcons
    cases hcons
  case h_2 =>
    rw [hread]
    split <;> rfl

/-- Only texts that amount to something are read. -/
theorem exists_amountsTo_of_ofText {d : Duration} (h : ofText s = .ok d) :
    ∃ total, AmountsTo (Text.trim s.toList) total := by
  unfold ofText at h
  split at h
  case h_1 => cases h
  case h_2 hne =>
    obtain ⟨sum, hread, -⟩ := Wire.bind_eq_ok.1 h
    rcases amountsTo_of_addComponents (Text.stops_reverse_trim _) (Nat.lt_succ_self _) hread with
      ⟨hnil, -⟩ | ⟨blanks, text, value, htrim, hblanks, htext, -⟩
    · exact absurd hnil hne
    · -- The first character is no white space.
      have hskip := Text.dropWhile_run (List.forall_mem_nil _) (Text.stops_trim s.toList)
      rw [List.nil_append, htrim] at hskip
      have hsame : text = blanks ++ text := (htext.skipBlank_append hblanks).symm.trans hskip
      rw [htrim, ← hsame]
      exact ⟨value, htext⟩

/-- A text is read as the duration that it amounts to. -/
theorem ofText_eq_ok_iff {d : Duration} :
    ofText s = .ok d ↔ AmountsTo (Text.trim s.toList) d.millis.toNat := by
  constructor
  · intro h
    obtain ⟨total, htotal⟩ := exists_amountsTo_of_ofText h
    rw [ofText_of_amountsTo htotal] at h
    split at h
    case isTrue hsize =>
      obtain rfl := Except.ok.inj h
      rw [UInt64.toNat_ofNat_of_lt' hsize]
      exact htotal
    case isFalse => cases h
  · intro h
    rw [ofText_of_amountsTo h, if_pos d.millis.toNat_lt, UInt64.ofNat_toNat]

/-- The texts that are read as durations are those that, without the white space at their ends, are
components in a row, and their sum is the duration. If the sum needs more than 64 bits, this is
what is reported. -/
theorem reads_exactly_the_amounts (s : String) :
    (∀ d, ofText s = .ok d ↔ AmountsTo (Text.trim s.toList) d.millis.toNat) ∧
    (∀ total, AmountsTo (Text.trim s.toList) total → UInt64.size ≤ total →
      ofText s = .error .overflow) ∧
    ∀ total total', AmountsTo (Text.trim s.toList) total →
      AmountsTo (Text.trim s.toList) total' → total = total' := by
  refine ⟨fun d ↦ ofText_eq_ok_iff, fun total htotal hsize ↦ ?_, fun _ _ h h' ↦ h.unique h'⟩
  rw [ofText_of_amountsTo htotal, if_neg (Nat.not_lt.2 hsize)]

/-- Blanks of all kinds between the parts, and a sum that passes 64 bits by less than a second. -/
theorem reads_exactly_the_amounts_spaced :
    (AmountsTo (Text.trim "\u2003 1h030m\t2s ".toList) 5402000 ∧
      ofText "\u2003 1h030m\t2s " = .ok ⟨5402000⟩) ∧
    AmountsTo (Text.trim "1ms 213503982335d".toList) 18446744073744000001 ∧
      ofText "1ms 213503982335d" = .error .overflow := by
  have hhours : IsComponent "1h".toList 3600000 :=
    @IsComponent.of_all _ ['1'] ['h'] (by decide) (by decide) (by decide) rfl
  have hminutes : IsComponent "030m".toList 1800000 :=
    @IsComponent.of_all _ ['0', '3', '0'] ['m'] (by decide) (by decide) (by decide) rfl
  have hseconds : IsComponent "2s".toList 2000 :=
    @IsComponent.of_all _ ['2'] ['s'] (by decide) (by decide) (by decide) rfl
  have hmillis : IsComponent "1ms".toList 1 :=
    @IsComponent.of_all _ ['1'] ['m', 's'] (by decide) (by decide) (by decide) rfl
  have hdays : IsComponent "213503982335d".toList 18446744073744000000 :=
    @IsComponent.of_all _ "213503982335".toList ['d'] (by decide) (by decide) (by decide) rfl
  have hsmall : AmountsTo (Text.trim "\u2003 1h030m\t2s ".toList) 5402000 :=
    .cons hhours (List.forall_mem_nil _)
      (.cons hminutes (List.forall_mem_singleton.2 (by decide : Text.isBlank '\t' = true))
        (.single hseconds))
  have hlarge : AmountsTo (Text.trim "1ms 213503982335d".toList) 18446744073744000001 :=
    .cons hmillis (List.forall_mem_singleton.2 (by decide : Text.isBlank ' ' = true))
      (.single hdays)
  exact ⟨⟨hsmall, ((reads_exactly_the_amounts _).1 ⟨5402000⟩).2 hsmall⟩, hlarge,
    (reads_exactly_the_amounts _).2.1 _ hlarge (by decide)⟩

end ChainClient.Duration
