import Mathlib.Data.List.TakeWhile
import Scriptlet.Number.Read
import Scriptlet.Proofs.Token.Continued

/-! Numerals. The scanner takes the longest numeral at the head of a text, and its value is the one
that the numeral has when it stands alone. -/
namespace Scriptlet

namespace Number

/-- A text that begins with a digit or a point has no sign and is none of the words. -/
theorem ofText?_begins (begins : c.isDigit = true ∨ c = '.') (cs : List Char) :
    ofText? (String.ofList (c :: cs)) =
      (readNumeral? (c :: cs)).map fun d => ofRank false d.nearestRank := by
  have sign : splitSign (c :: cs) = (false, c :: cs) := by
    unfold splitSign
    split
    · rename_i same
      cases same
      rcases begins with h | h <;> contradiction
    · rename_i same
      cases same
      rcases begins with h | h <;> contradiction
    · rfl
  have lower : c.toLower ≠ 'i' ∧ c.toLower ≠ 'n' := by
    rcases begins with digit | rfl
    · have same : c.toLower = c := by
        simp only [Char.isDigit, Bool.and_eq_true, decide_eq_true_eq, ge_iff_le,
          UInt32.le_iff_toNat_le] at digit
        unfold Char.toLower
        rw [dif_neg]
        simp only [ge_iff_le, UInt32.le_iff_toNat_le]
        simp at digit ⊢
        omega
      rw [same]
      constructor <;> (rintro rfl; contradiction)
    · decide
  have noWord {word : String} {first : Char} (begins : word.toList.head? = some first)
      (other : c.toLower ≠ first) : String.ofList ((c :: cs).map Char.toLower) ≠ word := by
    rintro rfl
    rw [String.toList_ofList] at begins
    exact other (Option.some.inj begins)
  have finite : ¬ (String.ofList ((c :: cs).map Char.toLower) = "inf" ∨
      String.ofList ((c :: cs).map Char.toLower) = "infinity") :=
    not_or.mpr ⟨noWord rfl lower.1, noWord rfl lower.1⟩
  unfold ofText?
  simp only [String.toList_ofList, sign]
  rw [if_neg finite, if_neg (noWord rfl lower.2)]

theorem readNumeral?_whole (digits : ∀ c ∈ whole, c.isDigit = true) (nonempty : whole ≠ []) :
    readNumeral? whole = some (Decimal.ofPoint whole []) := by
  have run : whole.takeWhile Char.isDigit = whole := List.takeWhile_eq_self_iff.mpr digits
  have rest : whole.dropWhile Char.isDigit = [] := List.dropWhile_eq_nil_iff.mpr digits
  simp only [readNumeral?, run, rest, splitFraction, readExponent?, Option.map_some]
  rw [if_neg (by simp [nonempty])]
  simp

theorem readNumeral?_point (digits : ∀ c ∈ whole, c.isDigit = true)
    (places : ∀ c ∈ fraction, c.isDigit = true) (nonempty : whole ≠ [] ∨ fraction ≠ []) :
    readNumeral? (whole ++ '.' :: fraction) = some (Decimal.ofPoint whole fraction) := by
  have stops : Token.Stops Char.isDigit ('.' :: fraction) := by
    intro c first
    cases first
    rfl
  have run := Token.takeWhile_stops digits stops
  have rest := Token.dropWhile_stops digits stops
  have after : fraction.takeWhile Char.isDigit = fraction := List.takeWhile_eq_self_iff.mpr places
  have stopped : fraction.dropWhile Char.isDigit = [] := List.dropWhile_eq_nil_iff.mpr places
  simp only [readNumeral?, run, rest, splitFraction, after, stopped, readExponent?, Option.map_some]
  rw [if_neg (by simpa [← imp_iff_not_or] using nonempty)]
  simp

end Number

namespace Token

open Number

/-- Digits, which may have a point with or without digits behind it; or a point and digits. -/
inductive Numeral : List Char → Prop where
  | whole (digits : ∀ c ∈ whole, c.isDigit = true) (nonempty : whole ≠ []) : Numeral whole
  | point (digits : ∀ c ∈ whole, c.isDigit = true) (places : ∀ c ∈ fraction, c.isDigit = true)
      (nonempty : whole ≠ [] ∨ fraction ≠ []) : Numeral (whole ++ '.' :: fraction)

namespace Numeral

theorem begins (numeral : Numeral text) :
    ∃ c more, text = c :: more ∧ (c.isDigit = true ∨ c = '.') := by
  cases numeral with
  | whole digits nonempty =>
    obtain ⟨c, more, rfl⟩ := List.exists_cons_of_ne_nil nonempty
    exact ⟨c, more, rfl, .inl (digits c (List.mem_cons_self ..))⟩
  | @point whole fraction digits places nonempty =>
    cases whole with
    | nil => exact ⟨'.', fraction, rfl, .inr rfl⟩
    | cons c more => exact ⟨c, _, rfl, .inl (digits c (List.mem_cons_self ..))⟩

theorem ofText?_eq (numeral : Numeral text) : ofText? (String.ofList text) =
    (readNumeral? text).map Decimal.toFloat := by
  obtain ⟨c, more, rfl, first⟩ := numeral.begins
  exact ofText?_begins first more

end Numeral

theorem ofText?_whole (digits : ∀ c ∈ whole, c.isDigit = true) (nonempty : whole ≠ []) :
    ofText? (String.ofList whole) = some (Decimal.ofPoint whole []).toFloat := by
  rw [(Numeral.whole digits nonempty).ofText?_eq, readNumeral?_whole digits nonempty]
  rfl

theorem ofText?_point (digits : ∀ c ∈ whole, c.isDigit = true)
    (places : ∀ c ∈ fraction, c.isDigit = true) (nonempty : whole ≠ [] ∨ fraction ≠ []) :
    ofText? (String.ofList (whole ++ '.' :: fraction)) =
      some (Decimal.ofPoint whole fraction).toFloat := by
  rw [(Numeral.point digits places nonempty).ofText?_eq, readNumeral?_point digits places nonempty]
  rfl

/-- What the scanner takes is a numeral, with the value that it has alone. -/
theorem numeral_of_number? {cs : List Char} {lexeme : Lexeme cs}
    (number : Lexeme.number? cs = some lexeme) : Numeral lexeme.text ∧
      ∃ x, lexeme.kind = .number x ∧ ofText? (String.ofList lexeme.text) = some x := by
  have finds := number?_found cs
  have split : cs = cs.takeWhile Char.isDigit ++ cs.dropWhile Char.isDigit :=
    List.takeWhile_append_dropWhile.symm
  have digits : ∀ c ∈ cs.takeWhile Char.isDigit, c.isDigit = true := fun c =>
    List.mem_takeWhile_imp
  have whole := lexeme.whole
  rw [number, Option.map_some] at finds
  generalize cs.takeWhile Char.isDigit = front at finds split digits
  generalize cs.dropWhile Char.isDigit = after at finds split
  by_cases point : ∃ more, after = '.' :: more
  · obtain ⟨more, rfl⟩ := point
    rw [numeralFound] at finds
    split at finds
    · contradiction
    · rename_i filled
      obtain ⟨kind, rest⟩ := Prod.mk.inj (Option.some.inj finds)
      have places : ∀ c ∈ more.takeWhile Char.isDigit, c.isDigit = true := fun c =>
        List.mem_takeWhile_imp
      have text : lexeme.text = front ++ '.' :: more.takeWhile Char.isDigit := by
        apply (List.append_left_inj lexeme.rest).mp
        rw [whole, rest, split, List.append_assoc, List.cons_append,
          List.takeWhile_append_dropWhile]
      have nonempty : front ≠ [] ∨ more.takeWhile Char.isDigit ≠ [] := by
        simpa [← imp_iff_not_or] using filled
      rw [text]
      exact ⟨.point digits places nonempty, _, kind, ofText?_point digits places nonempty⟩
  · rw [numeralFound_other (not_exists.mp point)] at finds
    split at finds
    · contradiction
    · rename_i nonempty
      obtain ⟨kind, rest⟩ := Prod.mk.inj (Option.some.inj finds)
      have text : lexeme.text = front := by
        apply (List.append_left_inj lexeme.rest).mp
        rw [whole, rest, split]
      rw [text]
      exact ⟨.whole digits nonempty, _, kind, ofText?_whole digits nonempty⟩

theorem length_dropWhile_lt {sort : Char → Bool} {cs : List Char}
    (nonempty : cs.takeWhile sort ≠ []) :
    (cs.dropWhile sort).length < cs.length := by
  have split := congrArg List.length (List.takeWhile_append_dropWhile (p := sort) (l := cs))
  have positive := List.length_pos_iff.mpr nonempty
  rw [List.length_append] at split
  omega

theorem dropWhile_of_takeWhile {sort : Char → Bool} {cs : List Char}
    (empty : cs.takeWhile sort = []) : cs.dropWhile sort = cs := by
  have split := List.takeWhile_append_dropWhile (p := sort) (l := cs)
  rwa [empty, List.nil_append] at split

/-- The scanner takes a numeral at the head of a text, or a longer one. -/
theorem number?_of_numeral (numeral : Numeral text) (value : ofText? (String.ofList text) = some x)
    (rest : List Char) : ∃ lexeme, Lexeme.number? (text ++ rest) = some lexeme ∧
      (found lexeme = (.number x, rest) ∨ lexeme.rest.length < rest.length) := by
  suffices result : ∃ result, (Lexeme.number? (text ++ rest)).map found = some result ∧
      (result = (.number x, rest) ∨ result.2.length < rest.length) by
    obtain ⟨result, finds, takes⟩ := result
    obtain ⟨lexeme, number, rfl⟩ := Option.map_eq_some_iff.mp finds
    exact ⟨lexeme, number, takes⟩
  rw [number?_found]
  cases numeral with
  | whole digits nonempty =>
    rw [ofText?_whole digits nonempty] at value
    cases value
    rw [List.takeWhile_append_of_pos digits, List.dropWhile_append_of_pos digits]
    by_cases point : ∃ more, rest.dropWhile Char.isDigit = '.' :: more
    · obtain ⟨more, after⟩ := point
      refine ⟨_, by rw [after, numeralFound, if_neg (by simp [nonempty])], .inr ?_⟩
      have short := (List.dropWhile_sublist Char.isDigit (l := rest)).length_le
      have shorter := (List.dropWhile_sublist Char.isDigit (l := more)).length_le
      rw [after, List.length_cons] at short
      simp only
      omega
    · refine ⟨_, by rw [numeralFound_other (not_exists.mp point), if_neg (by simp [nonempty])], ?_⟩
      by_cases more : rest.takeWhile Char.isDigit = []
      · left
        rw [more, dropWhile_of_takeWhile more, List.append_nil]
      · exact .inr (length_dropWhile_lt more)
  | @point whole fraction digits places nonempty =>
    rw [ofText?_point digits places nonempty] at value
    cases value
    have stops : Stops Char.isDigit ('.' :: (fraction ++ rest)) := by
      intro c first
      cases first
      rfl
    rw [List.append_assoc, List.cons_append, takeWhile_stops digits stops,
      dropWhile_stops digits stops, numeralFound, List.takeWhile_append_of_pos places,
      List.dropWhile_append_of_pos places]
    have filled :
        ¬ (whole.isEmpty && (fraction ++ rest.takeWhile Char.isDigit).isEmpty) = true := by
      rcases nonempty with filled | filled <;> simp [filled]
    refine ⟨_, if_neg filled, ?_⟩
    by_cases more : rest.takeWhile Char.isDigit = []
    · left
      rw [more, dropWhile_of_takeWhile more, List.append_nil]
    · exact .inr (length_dropWhile_lt more)

end Token
end Scriptlet
