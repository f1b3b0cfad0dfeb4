import Crafter.Lint
import Crafter.Proofs.Longest
import Crafter.Proofs.Spelling
import Crafter.Run.Expression

/-! The words of an expression. An expression is cut at the operators of arithmetic and
its operands are trimmed; none of this divides a word or joins two. -/
namespace Crafter

theorem Text.not_isBlank_of_isAlphanum {c : Char} (h : c.isAlphanum = true) :
    isBlank c = false := by
  rw [← Bool.not_eq_true]
  intro hblank
  have hcode : c.toNat < 48 ∨ 122 < c.toNat := by
    simp only [isBlank, inRanges, blankRanges, List.any_cons, List.any_nil, Bool.or_false,
      Bool.or_eq_true, Bool.and_eq_true, decide_eq_true_eq] at hblank
    omega
  delta Char.isAlphanum Char.isAlpha Char.isUpper Char.isLower Char.isDigit at h
  simp only [Bool.or_eq_true, Bool.and_eq_true, decide_eq_true_eq, UInt32.le_iff_toNat_le] at h
  have hrange : ((65 ≤ c.toNat ∧ c.toNat ≤ 90) ∨ (97 ≤ c.toNat ∧ c.toNat ≤ 122)) ∨
      (48 ≤ c.toNat ∧ c.toNat ≤ 57) := h
  omega

namespace Lint

theorem letterRuns_cons_of_not_alpha {c : Char} (hc : c.isAlpha = false) (cs : List Char) :
    letterRuns (c :: cs) = letterRuns cs := by
  rw [letterRuns.eq_def]
  simp [hc]

/-- A letter before a character that is none is a word of its own. -/
theorem letterRuns_cons_of_alone {c : Char} (hc : c.isAlpha = true) {cs : List Char}
    (hnext : ∀ d ∈ cs.head?, d.isAlpha = false) :
    letterRuns (c :: cs) = [c] :: letterRuns cs := by
  rw [letterRuns.eq_def]
  cases cs with
  | nil => simp [hc]
  | cons d ds =>
    have hd : d.isAlpha = false := hnext d rfl
    cases hruns : letterRuns (d :: ds) <;> simp [hc, hd, hruns]

/-- A letter before a word belongs to it. -/
theorem letterRuns_cons_of_joined {c d : Char} (hc : c.isAlpha = true) (hd : d.isAlpha = true)
    {ds run : List Char} {runs : List (List Char)} (hruns : letterRuns (d :: ds) = run :: runs) :
    letterRuns (c :: d :: ds) = (c :: run) :: runs := by
  rw [letterRuns.eq_def]
  simp [hc, hd, hruns]

/-- A run of letters ends at the first character that is none. -/
theorem letterRuns_letters_append {letters rest : List Char} (nonempty : letters ≠ [])
    (alpha : ∀ c ∈ letters, c.isAlpha = true) (hrest : ∀ c ∈ rest.head?, c.isAlpha = false) :
    letterRuns (letters ++ rest) = letters :: letterRuns rest := by
  induction letters with
  | nil => exact absurd rfl nonempty
  | cons c cs ih =>
    have hc : c.isAlpha = true := alpha c List.mem_cons_self
    cases cs with
    | nil => exact letterRuns_cons_of_alone hc hrest
    | cons d ds =>
      have hd : d.isAlpha = true := alpha d (List.mem_cons_of_mem c List.mem_cons_self)
      have hruns := ih (List.cons_ne_nil d ds) fun e he => alpha e (List.mem_cons_of_mem c he)
      exact letterRuns_cons_of_joined hc hd hruns

theorem letterRuns_letters {letters : List Char} (nonempty : letters ≠ [])
    (alpha : ∀ c ∈ letters, c.isAlpha = true) : letterRuns letters = [letters] := by
  have h : letterRuns (letters ++ []) = letters :: letterRuns [] :=
    letterRuns_letters_append nonempty alpha nofun
  rwa [List.append_nil] at h

theorem letterRuns_cons_ne_nil {c : Char} (hc : c.isAlpha = true) (cs : List Char) :
    letterRuns (c :: cs) ≠ [] := by
  have hsplit : c :: cs = (c :: cs.takeWhile Char.isAlpha) ++ cs.dropWhile Char.isAlpha := by
    rw [List.cons_append, List.takeWhile_append_dropWhile]
  rw [hsplit, letterRuns_letters_append (List.cons_ne_nil _ _) (forall_mem_cons_takeWhile hc)
    fun d hd => head?_dropWhile_fails hd]
  exact List.cons_ne_nil _ _

/-- A character that is no letter divides a text into two that have its words. -/
theorem letterRuns_append_cons (xs : List Char) {c : Char} (hc : c.isAlpha = false)
    (ys : List Char) : letterRuns (xs ++ c :: ys) = letterRuns xs ++ letterRuns ys := by
  induction xs with
  | nil => exact letterRuns_cons_of_not_alpha hc ys
  | cons x xs ih =>
    by_cases hx : x.isAlpha = true
    · -- the first letter joins the word after it on both sides, or on neither
      cases xs with
      | nil =>
        have hword : letterRuns [x] = [[x]] := letterRuns_cons_of_alone hx nofun
        have hnext : ∀ d ∈ (c :: ys).head?, d.isAlpha = false := by
          rintro d ⟨⟩
          exact hc
        rw [hword, List.singleton_append, letterRuns_cons_of_alone hx hnext,
          letterRuns_cons_of_not_alpha hc]
        rfl
      | cons y xs =>
        by_cases hy : y.isAlpha = true
        · obtain ⟨run, runs, hruns⟩ := List.exists_cons_of_ne_nil (letterRuns_cons_ne_nil hy xs)
          rw [hruns, List.cons_append] at ih
          rw [letterRuns_cons_of_joined hx hy hruns]
          exact letterRuns_cons_of_joined hx hy ih
        · have hnext (zs : List Char) : ∀ d ∈ (y :: zs).head?, d.isAlpha = false := by
            rintro d ⟨⟩
            exact Bool.eq_false_iff.mpr hy
          have hleft : letterRuns (x :: (y :: xs ++ c :: ys)) =
              [x] :: letterRuns (y :: xs ++ c :: ys) :=
            letterRuns_cons_of_alone hx (hnext (xs ++ c :: ys))
          rw [List.cons_append, hleft, letterRuns_cons_of_alone hx (hnext xs), ih]
          rfl
    · have hx : x.isAlpha = false := Bool.eq_false_iff.mpr hx
      rw [List.cons_append, letterRuns_cons_of_not_alpha hx, letterRuns_cons_of_not_alpha hx, ih]

theorem letterRuns_of_no_letter {xs : List Char} (h : ∀ c ∈ xs, c.isAlpha = false) :
    letterRuns xs = [] := by
  induction xs with
  | nil => rfl
  | cons c xs ih =>
    rw [letterRuns_cons_of_not_alpha (h c List.mem_cons_self)]
    exact ih fun d hd => h d (List.mem_cons_of_mem c hd)

theorem letterRuns_append_of_no_letter (xs : List Char) {ys : List Char}
    (h : ∀ c ∈ ys, c.isAlpha = false) : letterRuns (xs ++ ys) = letterRuns xs := by
  cases ys with
  | nil => rw [List.append_nil]
  | cons c ys =>
    have hys : ∀ d ∈ ys, d.isAlpha = false := fun d hd => h d (List.mem_cons_of_mem c hd)
    rw [letterRuns_append_cons xs (h c List.mem_cons_self), letterRuns_of_no_letter hys,
      List.append_nil]

theorem letterRuns_dropWhile {p : Char → Bool} (hp : ∀ c, p c = true → c.isAlpha = false)
    (xs : List Char) : letterRuns (xs.dropWhile p) = letterRuns xs := by
  induction xs with
  | nil => rfl
  | cons c xs ih =>
    by_cases hc : p c = true
    · rw [List.dropWhile_cons_of_pos hc, letterRuns_cons_of_not_alpha (hp c hc), ih]
    · rw [List.dropWhile_cons_of_neg hc]

theorem not_isAlpha_of_isBlank {c : Char} (h : Text.isBlank c = true) : c.isAlpha = false := by
  rw [← Bool.not_eq_true]
  intro halpha
  have hsolid := Text.not_isBlank_of_isAlphanum (Bool.or_eq_true_iff.mpr (Or.inl halpha))
  rw [h] at hsolid
  cases hsolid

/-- No blank is a letter, so that a text keeps its words when it is trimmed. -/
theorem letterRuns_trim (xs : List Char) : letterRuns (Text.trim xs) = letterRuns xs := by
  have hblank : ∀ c, Text.isBlank c = true → c.isAlpha = false := fun _ => not_isAlpha_of_isBlank
  have hcut (ys : List Char) : letterRuns (ys.reverse.dropWhile Text.isBlank).reverse =
      letterRuns ys := by
    have hsplit : ys = (ys.reverse.dropWhile Text.isBlank).reverse ++
        (ys.reverse.takeWhile Text.isBlank).reverse := by
      rw [← List.reverse_append, List.takeWhile_append_dropWhile, List.reverse_reverse]
    have hdropped : ∀ c ∈ (ys.reverse.takeWhile Text.isBlank).reverse, c.isAlpha = false := by
      intro c hc
      exact hblank c (List.mem_takeWhile_imp (List.mem_reverse.mp hc))
    calc letterRuns (ys.reverse.dropWhile Text.isBlank).reverse
        = letterRuns ((ys.reverse.dropWhile Text.isBlank).reverse ++
            (ys.reverse.takeWhile Text.isBlank).reverse) :=
          (letterRuns_append_of_no_letter _ hdropped).symm
      _ = letterRuns ys := by rw [← hsplit]
  unfold Text.trim Text.trimBy
  rw [hcut, letterRuns_dropWhile hblank]

theorem not_isAlpha_of_ofChar? {c : Char} {operator : Arithmetic}
    (h : Arithmetic.ofChar? c = some operator) : c.isAlpha = false := by
  unfold Arithmetic.ofChar? at h
  split at h
  · decide
  · decide
  · decide
  · decide
  · cases h

/-- A blank stands between the first of several texts and the others. -/
theorem toList_intercalate_blank (text next : String) (texts : List String) :
    (" ".intercalate (text :: next :: texts)).toList =
      text.toList ++ ' ' :: (" ".intercalate (next :: texts)).toList := by
  rw [String.intercalate_cons_cons, String.toList_append, String.toList_append, List.append_assoc]
  rfl

/-- The words of a text: its runs of letters, keywords included. -/
def words (text : List Char) : List String := (letterRuns text).map String.ofList

theorem words_of_no_letter {text : List Char} (h : ∀ c ∈ text, c.isAlpha = false) :
    words text = [] := by
  unfold words
  rw [letterRuns_of_no_letter h, List.map_nil]

theorem words_append_cons (front : List Char) {c : Char} (hc : c.isAlpha = false)
    (text : List Char) : words (front ++ c :: text) = words front ++ words text := by
  unfold words
  rw [letterRuns_append_cons front hc, List.map_append]

theorem words_append_ofText (front text : List Char) : words (front ++ text) =
    words (front ++ (Chain.ofText text).head) ++
      (Chain.ofText text).tail.flatMap fun link => words link.2 := by
  -- what stands in front grows by each character that is no operator
  induction text generalizing front with
  | nil =>
    rw [Chain.ofText, List.append_nil, List.flatMap_nil, List.append_nil]
  | cons c text ih =>
    rw [Chain.ofText]
    cases hoperator : Arithmetic.ofChar? c with
    | some operator =>
      dsimp only
      rw [words_append_cons front (not_isAlpha_of_ofChar? hoperator), List.flatMap_cons,
        List.append_nil]
      exact congrArg (words front ++ ·) (ih [])
    | none =>
      dsimp only
      rw [List.append_cons, ih, List.append_cons front c (Chain.ofText text).head]

/-- Cutting an expression at its operators cuts no word. -/
theorem words_eq_flatMap (text : List Char) : words text =
    words (Chain.ofText text).head ++
      (Chain.ofText text).tail.flatMap fun link => words link.2 :=
  words_append_ofText [] text

theorem words_trim (text : List Char) : words (Text.trim text) = words text := by
  unfold words
  rw [letterRuns_trim]

theorem words_letters {letters : List Char} (nonempty : letters ≠ [])
    (alpha : ∀ c ∈ letters, c.isAlpha = true) : words letters = [String.ofList letters] := by
  unfold words
  rw [letterRuns_letters nonempty alpha, List.map_singleton]

/-- A text that is a number has no words. -/
theorem words_of_digits {text : List Char} {x : Float} (h : Number.ofDigits? text = some x) :
    words text = [] := by
  unfold Number.ofDigits? at h
  split at h
  · next hdigits =>
    have hdigit := List.all_eq_true.mp hdigits.2
    exact words_of_no_letter fun c hc => Source.not_isAlpha_of_isDigit (hdigit c hc)
  · cases h

end Lint

end Crafter
