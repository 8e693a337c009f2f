import TermLexer.Proofs.Unicode.Tables
import TermLexer.Text.Fold

/-! # Folding in parts

Folding a part of a text depends on the rest in one way only: whether a sigma of the part meets a
cased code point on either side. A separator stops that question, so a text can be folded piece by
piece where separators stand between the pieces. What comes out of folding consists of settled code
points, which folding leaves alone wherever they stand; a part cut out of a folded text is therefore
its own folded form. -/

namespace TermLexer.Text

open TermLexer.Unicode

/-! ## Settled code points -/

/-- Folding leaves the code point as it is, wherever it stands. -/
def Settled (c : Char) : Prop := ∀ before after, foldChar before c after = [c]

theorem settled_of_toLower {c : Char} (hsigma : c ≠ 'Σ') (hdotted : c ≠ 'İ') (h : toLower c = c) :
    Settled c := by
  intro before after
  rw [foldChar, if_neg hsigma, if_neg hdotted, h]

theorem settled_toLower {c : Char} (hdotted : c ≠ 'İ') : Settled (toLower c) := by
  refine settled_of_toLower ?_ (toLower_ne_dotted hdotted) (toLower_toLower c)
  intro hsigma
  have hfinal := toLower_toLower c
  rw [hsigma] at hfinal
  revert hfinal
  decide

theorem settled_of_isWhitespace {c : Char} (h : isWhitespace c = true) : Settled c := by
  refine settled_of_toLower ?_ ?_ (toLower_of_isWhitespace h)
  · rintro rfl
    revert h
    decide
  · rintro rfl
    revert h
    decide

theorem settled_of_mem_foldChar {before after : Text} {c d : Char}
    (h : d ∈ foldChar before c after) : Settled d := by
  unfold foldChar at h
  split at h
  · split at h
    · rw [List.mem_singleton.mp h]
      exact settled_of_toLower (by decide) (by decide) (by decide)
    · rw [List.mem_singleton.mp h]
      exact settled_of_toLower (by decide) (by decide) (by decide)
  · split at h
    · rcases List.mem_cons.mp h with rfl | h
      · exact settled_of_toLower (by decide) (by decide) (by decide)
      · rw [List.mem_singleton.mp h]
        exact settled_of_toLower (by decide) (by decide) (by decide)
    · rename_i hdotted
      rw [List.mem_singleton.mp h]
      exact settled_toLower hdotted

theorem settled_of_mem_foldAfter {before s : Text} {d : Char} (h : d ∈ foldAfter before s) :
    Settled d := by
  induction s generalizing before with
  | nil => cases h
  | cons c cs ih =>
    rcases List.mem_append.mp h with h | h
    · exact settled_of_mem_foldChar h
    · exact ih h

theorem foldAfter_of_settled {before s : Text} (h : ∀ c ∈ s, Settled c) :
    foldAfter before s = s := by
  induction s generalizing before with
  | nil => rfl
  | cons c cs ih =>
    rw [foldAfter, h c List.mem_cons_self, ih fun d hd => h d (List.mem_cons_of_mem _ hd)]
    rfl

/-- A part of a folded text is folded. -/
theorem fold_of_infix {s t : Text} (h : s <:+: fold t) : fold s = s :=
  foldAfter_of_settled fun _ hc => settled_of_mem_foldAfter (h.subset hc)

/-! ## Sides of a sigma -/

theorem meetsCased_cons (c : Char) (cs : Text) :
    meetsCased (c :: cs) = if isIgnorable c = true then meetsCased cs else isCased c := by
  rw [meetsCased, List.dropWhile_cons]
  cases isIgnorable c <;> rfl

theorem meetsCased_append (a b : Text) :
    meetsCased (a ++ b) = if a.all isIgnorable = true then meetsCased b else meetsCased a := by
  induction a with
  | nil => rfl
  | cons c cs ih =>
    rw [List.cons_append, meetsCased_cons, meetsCased_cons, ih, List.all_cons]
    cases isIgnorable c <;> simp

theorem meetsCased_of_all_ignorable {s : Text} (h : s.all isIgnorable = true) :
    meetsCased s = false := by
  have happend := meetsCased_append s []
  rw [List.append_nil, if_pos h] at happend
  exact happend

/-- A code point that is neither cased nor ignorable ends the search. -/
theorem meetsCased_cons_of_inert {c : Char} (hcased : isCased c = false)
    (hignorable : isIgnorable c = false) (cs : Text) : meetsCased (c :: cs) = false := by
  rw [meetsCased_cons, if_neg (Bool.eq_false_iff.mp hignorable), hcased]

theorem foldChar_congr {before before' after after' : Text} (c : Char)
    (hbefore : meetsCased before = meetsCased before')
    (hafter : meetsCased after = meetsCased after') :
    foldChar before c after = foldChar before' c after' := by
  rw [foldChar, foldChar, endsWord, endsWord, hbefore, hafter]

theorem foldAfter_congr {before before' : Text} (h : meetsCased before = meetsCased before')
    (s : Text) : foldAfter before s = foldAfter before' s := by
  induction s generalizing before before' with
  | nil => rfl
  | cons c cs ih =>
    have hnext : meetsCased (c :: before) = meetsCased (c :: before') := by
      rw [meetsCased_cons, meetsCased_cons, h]
    rw [foldAfter, foldAfter, foldChar_congr c h rfl, ih hnext]

/-! ## Folding the first of two parts -/

/-- Folds a text that has `before`, listed backwards, in front of it and `after` behind it. -/
def foldBetween (before : Text) : Text → Text → Text
  | [], _ => []
  | c :: cs, after => foldChar before c (cs ++ after) ++ foldBetween (c :: before) cs after

theorem foldAfter_append (before a b : Text) :
    foldAfter before (a ++ b) = foldBetween before a b ++ foldAfter (a.reverse ++ before) b := by
  induction a generalizing before with
  | nil => rfl
  | cons c cs ih =>
    rw [List.cons_append, foldAfter, foldBetween, ih, List.reverse_cons, List.append_assoc,
      List.append_assoc]
    rfl

theorem fold_append (a b : Text) : fold (a ++ b) = foldBetween [] a b ++ foldAfter a.reverse b := by
  have happend := foldAfter_append [] a b
  rw [List.append_nil] at happend
  exact happend

/-- Text behind a part in which no cased code point is met first may as well be missing. -/
theorem foldBetween_of_meetsCased {after : Text} (h : meetsCased after = false) (before s : Text) :
    foldBetween before s after = foldAfter before s := by
  induction s generalizing before with
  | nil => rfl
  | cons c cs ih =>
    have hrest : meetsCased (cs ++ after) = meetsCased cs := by
      rw [meetsCased_append, h]
      split
      · rename_i hall
        exact (meetsCased_of_all_ignorable hall).symm
      · rfl
    rw [foldBetween, foldAfter, foldChar_congr c rfl hrest, ih]

/-! ## Folding around separators -/

/-- Where a part begins with a code point that is neither cased nor ignorable, the two parts can be
folded on their own. -/
theorem fold_append_of_inert {c : Char} (hcased : isCased c = false)
    (hignorable : isIgnorable c = false) (a b : Text) :
    fold (a ++ c :: b) = fold a ++ fold (c :: b) := by
  have hstop := meetsCased_cons_of_inert hcased hignorable
  have hsigma : c ≠ 'Σ' := by
    rintro rfl
    revert hcased
    decide
  have hhead : foldChar a.reverse c b = foldChar [] c b := by
    simp only [foldChar, if_neg hsigma]
  have hrest : foldAfter (c :: a.reverse) b = foldAfter [c] b :=
    foldAfter_congr ((hstop a.reverse).trans (hstop []).symm) b
  rw [fold_append, foldBetween_of_meetsCased (hstop b), foldAfter, hhead, hrest]
  rfl

theorem fold_cons_blank {c : Char} (h : isWhitespace c = true) (s : Text) :
    fold (c :: s) = c :: fold s := by
  have hstop : meetsCased [c] = meetsCased [] :=
    meetsCased_cons_of_inert (isCased_eq_false h) (isIgnorable_eq_false h) []
  rw [fold, foldAfter, settled_of_isWhitespace h, foldAfter_congr hstop s]
  rfl

theorem fold_append_blank {c : Char} (h : isWhitespace c = true) (a b : Text) :
    fold (a ++ c :: b) = fold a ++ c :: fold b := by
  rw [fold_append_of_inert (isCased_eq_false h) (isIgnorable_eq_false h), fold_cons_blank h]

end TermLexer.Text
