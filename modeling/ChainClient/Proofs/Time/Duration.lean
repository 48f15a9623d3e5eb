import ChainClient.Proofs.Json.Arrangement
import ChainClient.Proofs.Time.Amount

/-!
# The texts of durations

What is written of a duration are components with a space between them, from days down to
milliseconds. They amount to the duration, so that it is read back.
-/

namespace ChainClient.Duration

/-- The components stand for so many milliseconds together. -/
inductive AddUp : List (List Char) → Nat → Prop
  | nil : AddUp [] 0
  | cons {text : List Char} {texts : List (List Char)} {value total : Nat}
    (htext : IsComponent text value) (htexts : AddUp texts total) :
    AddUp (text :: texts) (value + total)

variable {texts texts' : List (List Char)} {value value' : Nat}

/-- Components in a row add up. -/
theorem AddUp.append (h : AddUp texts value) (h' : AddUp texts' value') :
    AddUp (texts ++ texts') (value + value') := by
  induction h with
  | nil =>
    rw [Nat.zero_add]
    exact h'
  | cons htext _ ih =>
    rw [Nat.add_assoc]
    exact .cons htext ih

/-- A space between components leaves them in a row. -/
theorem AddUp.amountsTo (h : AddUp texts value) (hne : texts ≠ []) :
    AmountsTo ([' '].intercalate texts) value := by
  induction h with
  | nil => exact absurd rfl hne
  | @cons text texts _ _ htext htexts ih =>
    cases texts with
    | nil =>
      cases htexts
      rw [List.intercalate_singleton]
      exact .single htext
    | cons next texts =>
      have hspace : ∀ c ∈ [' '], Text.isBlank c = true := List.forall_mem_singleton.2 rfl
      rw [List.intercalate_cons_cons, List.append_assoc]
      exact .cons htext hspace (ih (List.cons_ne_nil next texts))

/-- A written count and a known unit are a component. -/
theorem isComponent_ofNat (count : Nat) {unit : List Char} {size : Nat} (hunit : unit ≠ [])
    (hletters : unit.all Char.isAlpha = true)
    (hsize : unitMillis? (String.ofList unit) = some size) :
    IsComponent (Text.Decimal.ofNat count ++ unit) (count * size) := by
  have hcomponent : IsComponent (Text.Decimal.ofNat count ++ unit)
      (Nat.ofDigitChars 10 (Text.Decimal.ofNat count) 0 * size) :=
    .mk (Text.Decimal.ofNat_ne_nil count) (fun c hc ↦ Text.Decimal.isDigit_of_mem_ofNat hc) hunit
      (List.all_eq_true.1 hletters) hsize
  rw [Text.Decimal.ofDigitChars_ofNat] at hcomponent
  exact hcomponent

/-- A component is left out just if it is zero, so it adds the same either way. -/
theorem addUp_component (count : Nat) {unit : List Char} {size : Nat} (hunit : unit ≠ [])
    (hletters : unit.all Char.isAlpha = true)
    (hsize : unitMillis? (String.ofList unit) = some size) :
    AddUp (component count unit) (count * size) := by
  unfold component
  split
  case isTrue hcount =>
    rw [hcount, Nat.zero_mul]
    exact .nil
  case isFalse => exact .cons (isComponent_ofNat count hunit hletters hsize) .nil

/-- The components of a duration add up to it. -/
theorem addUp_components (n : Nat) : AddUp (components n) n := by
  have hdays : AddUp (component (n / perDay)
      (if n / perDay = 1 then ['d', 'a', 'y'] else ['d', 'a', 'y', 's']))
        (n / perDay * perDay) := by
    split <;> exact addUp_component _ (by decide) (by decide) rfl
  have hhours : AddUp (component (n % perDay / perHour) ['h']) (n % perDay / perHour * perHour) :=
    addUp_component _ (by decide) (by decide) rfl
  have hminutes : AddUp (component (n % perHour / perMinute) ['m'])
      (n % perHour / perMinute * perMinute) :=
    addUp_component _ (by decide) (by decide) rfl
  have hseconds : AddUp (component (n % perMinute / perSecond) ['s'])
      (n % perMinute / perSecond * perSecond) :=
    addUp_component _ (by decide) (by decide) rfl
  have hmillis : AddUp (component (n % perSecond) ['m', 's']) (n % perSecond * 1) :=
    addUp_component _ (by decide) (by decide) rfl
  have hsum : n / perDay * perDay + n % perDay / perHour * perHour +
      n % perHour / perMinute * perMinute + n % perMinute / perSecond * perSecond +
        n % perSecond * 1 = n := by
    simp only [perDay, perHour, perMinute, perSecond, Nat.reduceMul]
    omega
  have hall := (((hdays.append hhours).append hminutes).append hseconds).append hmillis
  rw [hsum] at hall
  exact hall

/-- Every text of a duration amounts to it, also that of no time. -/
theorem amountsTo_chars (d : Duration) : AmountsTo d.chars d.millis.toNat := by
  unfold chars
  split
  case isTrue hzero =>
    rw [hzero]
    exact .single (@IsComponent.of_all _ ['0'] ['s'] (by decide) (by decide) (by decide) rfl)
  case isFalse hne =>
    refine (addUp_components d.millis.toNat).amountsTo fun hnil ↦ ?_
    have hsum := addUp_components d.millis.toNat
    rw [hnil] at hsum
    generalize hn : d.millis.toNat = n at hsum
    cases hsum
    exact hne (UInt64.toNat_inj.1 hn)

/-- The text of a duration amounts to it. -/
theorem amountsTo_text (d : Duration) : AmountsTo (Text.trim d.text.toList) d.millis.toNat := by
  rw [text, String.toList_ofList, (amountsTo_chars d).trim_eq]
  exact amountsTo_chars d

theorem readsBack (d : Duration) : ReadsBack d :=
  Json.readsBack_text (ofText_eq_ok_iff.2 d.amountsTo_text)

/-- What is written of any count of milliseconds are components in a row that amount to it, without
white space at the ends, and it is read back. -/
theorem text_reads_back (millis : UInt64) :
    AmountsTo (text ⟨millis⟩).toList millis.toNat ∧ ofText (text ⟨millis⟩) = .ok ⟨millis⟩ := by
  constructor
  · rw [text, String.toList_ofList]
    exact amountsTo_chars ⟨millis⟩
  · exact ofText_eq_ok_iff.2 (amountsTo_text ⟨millis⟩)

end ChainClient.Duration
