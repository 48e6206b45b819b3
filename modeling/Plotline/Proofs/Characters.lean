/-
Module: Plotline.Proofs.Characters
Layer: Proofs
Purpose: The classes of characters that cut a line into tokens, and what folding and trimming do to a text.
  Each ASCII class is a range of code points, so that facts about two classes are facts about numbers. A
  text in which nothing is left to fold and which has no blank at either end is not changed by normalizing.
Main exports: Text.isAlpha_iff, Text.isLower_iff, Text.isBlank_of_visible, Text.IsFolded, Text.upper_eq,
  Text.trim_eq, Line.normalize_eq
-/
import Plotline.Line

namespace Plotline

namespace Text

/-! ### Ranges -/

theorem isLower_iff (c : Char) : c.isLower = true ↔ 97 ≤ c.toNat ∧ c.toNat ≤ 122 := by
  show (decide (c.val ≥ 97) && decide (c.val ≤ 122)) = true ↔ _
  simp [UInt32.le_iff_toNat_le]

theorem isUpper_iff (c : Char) : c.isUpper = true ↔ 65 ≤ c.toNat ∧ c.toNat ≤ 90 := by
  show decide (c.val ≥ 65 ∧ c.val ≤ 90) = true ↔ _
  simp [UInt32.le_iff_toNat_le]

theorem isAlpha_iff (c : Char) :
    c.isAlpha = true ↔ (65 ≤ c.toNat ∧ c.toNat ≤ 90) ∨ (97 ≤ c.toNat ∧ c.toNat ≤ 122) := by
  rw [← isUpper_iff, ← isLower_iff]
  exact Bool.or_eq_true_iff

theorem isAlphanum_iff (c : Char) : c.isAlphanum = true ↔ c.isAlpha = true ∨ c.isDigit = true := by
  simp [Char.isAlphanum]

theorem toNat_toUpper (c : Char) : c.toUpper.toNat = if c.isLower then c.toNat - 32 else c.toNat := by
  simp only [isLower_iff]
  unfold Char.toUpper
  split
  · rename_i lower
    have bounds : 97 ≤ c.toNat ∧ c.toNat ≤ 122 := by simpa [UInt32.le_iff_toNat_le] using lower
    rw [if_pos bounds, ← Char.toNat_val, UInt32.toNat_add]
    simp
    omega
  · rename_i other
    rw [if_neg (by simpa [UInt32.le_iff_toNat_le] using other)]

theorem toNat_toLower (c : Char) : c.toLower.toNat = if c.isUpper then c.toNat + 32 else c.toNat := by
  simp only [isUpper_iff]
  unfold Char.toLower
  split
  · rename_i upper
    have bounds : 65 ≤ c.toNat ∧ c.toNat ≤ 90 := by simpa [UInt32.le_iff_toNat_le] using upper
    rw [if_pos bounds, ← Char.toNat_val, UInt32.toNat_add]
    simp
    omega
  · rename_i other
    rw [if_neg (by simpa [UInt32.le_iff_toNat_le] using other)]

/-- The characters from the exclamation mark to the tilde. -/
def isVisible (c : Char) : Bool :=
  33 ≤ c.toNat && c.toNat ≤ 126

theorem isVisible_iff (c : Char) : isVisible c = true ↔ 33 ≤ c.toNat ∧ c.toNat ≤ 126 := by
  simp [isVisible]

theorem isVisible_of_isAlphanum {c : Char} (h : c.isAlphanum = true) : isVisible c = true := by
  rw [isAlphanum_iff, isAlpha_iff, Char.isDigit_iff_toNat] at h
  simp only [Char.reduceToNat] at h
  rw [isVisible_iff]
  omega

/-- No visible character is blank. -/
theorem isBlank_of_visible {c : Char} (h : isVisible c = true) : isBlank c = false := by
  rw [isVisible_iff] at h
  simp only [isBlank, blankRanges, List.any_cons, List.any_nil, Bool.or_false, Bool.or_eq_false_iff,
    Bool.and_eq_false_iff, decide_eq_false_iff_not]
  omega

/-- No visible character separates tokens. -/
theorem isSpace_of_visible {c : Char} (h : isVisible c = true) : isSpace c = false := by
  cases space : isSpace c with
  | false => rfl
  | true =>
      have blank := isBlank_of_isSpace space
      rw [isBlank_of_visible h] at blank
      cases blank

theorem isLower_of_isDigit {c : Char} (h : c.isDigit = true) : c.isLower = false := by
  rw [← Bool.not_eq_true, isLower_iff]
  simp only [Char.isDigit_iff_toNat, Char.reduceToNat] at h
  omega

theorem isAlpha_of_isDigit {c : Char} (h : c.isDigit = true) : c.isAlpha = false := by
  rw [← Bool.not_eq_true, isAlpha_iff]
  simp only [Char.isDigit_iff_toNat, Char.reduceToNat] at h
  omega

/-- The text ends with a visible character. -/
def EndsVisible (cs : List Char) : Prop :=
  ∃ front c, cs = front ++ [c] ∧ isVisible c = true

theorem EndsVisible.of_forall {cs : List Char} (nonempty : cs ≠ [])
    (all : ∀ c ∈ cs, isVisible c = true) : EndsVisible cs :=
  ⟨cs.dropLast, cs.getLast nonempty, (List.dropLast_concat_getLast nonempty).symm,
    all _ (List.getLast_mem nonempty)⟩

theorem EndsVisible.append_left {cs : List Char} (h : EndsVisible cs) (ds : List Char) :
    EndsVisible (ds ++ cs) := by
  rcases h with ⟨front, c, rfl, visible⟩
  exact ⟨ds ++ front, c, (List.append_assoc ..).symm, visible⟩

/-! ### Folding -/

/-- A text in which nothing is left to fold. -/
def IsFolded (cs : List Char) : Prop :=
  ∀ c ∈ cs, c.isLower = false

instance (cs : List Char) : Decidable (IsFolded cs) :=
  List.decidableBAll _ cs

theorem IsFolded.mono {cs ds : List Char} (folded : IsFolded cs) (h : ds ⊆ cs) : IsFolded ds :=
  fun c mem => folded c (h mem)

theorem isFolded_upper (cs : List Char) : IsFolded (upper cs) := by
  intro c mem
  rcases List.mem_map.1 mem with ⟨d, _, rfl⟩
  rw [← Bool.not_eq_true, isLower_iff, toNat_toUpper]
  split
  · rename_i lower
    have range := (isLower_iff d).1 lower
    omega
  · rename_i other
    exact fun range => other ((isLower_iff d).2 range)

theorem upper_eq {cs : List Char} (folded : IsFolded cs) : upper cs = cs := by
  have same : ∀ c ∈ cs, c.toUpper = id c := by
    intro c mem
    apply Char.toNat_inj.1
    rw [toNat_toUpper, folded c mem]
    rfl
  rw [upper, List.map_congr_left same, List.map_id]

theorem IsFolded.append {cs ds : List Char} (first : IsFolded cs) (second : IsFolded ds) :
    IsFolded (cs ++ ds) := by
  intro c mem
  rcases List.mem_append.1 mem with mem | mem
  · exact first c mem
  · exact second c mem

/-! ### Trimming -/

theorem trimEnd_subset (cs : List Char) : trimEnd cs ⊆ cs := by
  intro c mem
  rw [trimEnd, List.mem_reverse] at mem
  exact List.mem_reverse.1 ((List.dropWhile_suffix isBlank).subset mem)

/-- Trimming adds no characters. -/
theorem trim_subset (cs : List Char) : trim cs ⊆ cs := by
  intro c mem
  exact (List.dropWhile_suffix isBlank).subset (trimEnd_subset _ mem)

/-- A text that starts and ends with visible characters is not changed by trimming. -/
theorem trim_eq {cs : List Char} (starts : ∀ c ∈ cs.head?, isVisible c = true)
    (ends : EndsVisible cs) : trim cs = cs := by
  have front : trimStart cs = cs := by
    cases cs with
    | nil => rfl
    | cons c rest => rw [trimStart, List.dropWhile_cons, isBlank_of_visible (starts c rfl)]; rfl
  rw [trim, front, trimEnd]
  rcases ends with ⟨before, c, rfl, visible⟩
  rw [List.reverse_append, List.reverse_singleton, List.singleton_append, List.dropWhile_cons,
    isBlank_of_visible visible]
  simp

end Text

namespace Line

theorem isFolded_normalize (s : String) : Text.IsFolded (normalize s) := by
  intro c mem
  exact Text.isFolded_upper s.toList c (Text.trim_subset _ mem)

/-- A text that is folded and trimmed is in the form that lines are read in. -/
theorem normalize_eq {cs : List Char} (folded : Text.IsFolded cs)
    (starts : ∀ c ∈ cs.head?, Text.isVisible c = true) (ends : Text.EndsVisible cs) :
    normalize (String.ofList cs) = cs := by
  rw [normalize, String.toList_ofList, Text.upper_eq folded, Text.trim_eq starts ends]

end Line

end Plotline
