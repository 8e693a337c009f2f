import TermLexer.Proofs.Text.Fold

/-! # Folding two texts and folding them as one

What stands around a text has a say in one thing only when the text is folded: whether a sigma in it
is a final one. So two texts folded on their own and the two folded as one are the same code point
by code point but for the sigmas, of which both forms have two bytes. They are the same altogether
where no sigma can look from one text into the other. -/

namespace TermLexer.Text

open TermLexer.Unicode

/-! ## Forms of a folded text -/

/-- The two small sigmas, of which the second ends a word. -/
def smallSigmas : List Char := ['σ', 'ς']

/-- Two folded forms of a text, the same for each of its code points but for the sigmas. -/
inductive SigmaVariants : Text → Text → Text → Prop
  | nil : SigmaVariants [] [] []
  | other {c : Char} {s u v : Text} : c ≠ 'Σ' → SigmaVariants s u v →
      SigmaVariants (c :: s) (foldChar [] c [] ++ u) (foldChar [] c [] ++ v)
  | sigma {x y : Char} {s u v : Text} : x ∈ smallSigmas → y ∈ smallSigmas →
      SigmaVariants s u v → SigmaVariants ('Σ' :: s) (x :: u) (y :: v)

/-- For each code point of a folded text the one from which it stems. -/
def origins (s : Text) : Text := s.flatMap fun c => List.replicate (foldChar [] c []).length c

/-- Neither cased nor ignorable. -/
structure Inert (c : Char) : Prop where
  cased : isCased c = false
  ignorable : isIgnorable c = false

theorem foldChar_of_ne_sigma {c : Char} (hc : c ≠ 'Σ') (before after : Text) :
    foldChar before c after = foldChar [] c [] := by
  rw [foldChar, foldChar, if_neg hc, if_neg hc]

theorem exists_foldChar_sigma (before after : Text) :
    ∃ x ∈ smallSigmas, foldChar before 'Σ' after = [x] := by
  rw [foldChar, if_pos rfl]
  cases endsWord before after with
  | true => exact ⟨'ς', by simp [smallSigmas], rfl⟩
  | false => exact ⟨'σ', by simp [smallSigmas], rfl⟩

/-- Whatever stands around a text, its folded forms are the same but for the sigmas. -/
theorem sigmaVariants_foldBetween (before after before' after' s : Text) :
    SigmaVariants s (foldBetween before s after) (foldBetween before' s after') := by
  induction s generalizing before before' with
  | nil => exact .nil
  | cons c cs ih =>
    rw [foldBetween, foldBetween]
    by_cases hc : c = 'Σ'
    · subst hc
      obtain ⟨x, hx, hleft⟩ := exists_foldChar_sigma before (cs ++ after)
      obtain ⟨y, hy, hright⟩ := exists_foldChar_sigma before' (cs ++ after')
      rw [hleft, hright]
      exact .sigma hx hy (ih _ _)
    · rw [foldChar_of_ne_sigma hc, foldChar_of_ne_sigma hc before']
      exact .other hc (ih _ _)

theorem foldBetween_nil (before s : Text) : foldBetween before s [] = foldAfter before s :=
  foldBetween_of_meetsCased rfl before s

namespace SigmaVariants

variable {s u v : Text} (h : SigmaVariants s u v)

include h

theorem append {s' u' v' : Text} (h' : SigmaVariants s' u' v') :
    SigmaVariants (s ++ s') (u ++ u') (v ++ v') := by
  induction h with
  | nil => exact h'
  | other hc _ ih =>
    rw [List.append_assoc, List.append_assoc]
    exact .other hc ih
  | sigma hx hy _ ih => exact .sigma hx hy ih

theorem length_eq : u.length = v.length := by
  induction h with
  | nil => rfl
  | other _ _ ih => rw [List.length_append, List.length_append, ih]
  | sigma _ _ _ ih => rw [List.length_cons, List.length_cons, ih]

theorem byteSize_eq : byteSize u = byteSize v := by
  have hsize : ∀ x ∈ smallSigmas, x.utf8Size = 2 := List.forall_mem_cons.mpr
    ⟨rfl, List.forall_mem_singleton.mpr rfl⟩
  induction h with
  | nil => rfl
  | other _ _ ih => rw [byteSize_append, byteSize_append, ih]
  | sigma hx hy _ ih => rw [byteSize_cons, byteSize_cons, hsize _ hx, hsize _ hy, ih]

theorem length_origins : (origins s).length = u.length := by
  induction h with
  | nil => rfl
  | other _ _ ih =>
    rw [origins, List.flatMap_cons, List.length_append, List.length_append, List.length_replicate]
    exact congrArg _ ih
  | sigma _ _ _ ih => exact congrArg (· + 1) ih

/-- Where two folded forms differ, both have a sigma that stems from a capital one. -/
theorem getElem?_eq_or (i : Nat) : u[i]? = v[i]? ∨ (origins s)[i]? = some 'Σ' ∧
    ∃ x ∈ smallSigmas, ∃ y ∈ smallSigmas, u[i]? = some x ∧ v[i]? = some y := by
  induction h generalizing i with
  | nil => exact .inl rfl
  | @other c s u v _ _ ih =>
    rw [origins, List.flatMap_cons]
    by_cases hi : i < (foldChar [] c []).length
    · rw [List.getElem?_append_left hi, List.getElem?_append_left hi]
      exact .inl rfl
    · have hle := Nat.le_of_not_lt hi
      have horigin : (List.replicate (foldChar [] c []).length c).length ≤ i := by
        rwa [List.length_replicate]
      rw [List.getElem?_append_right hle, List.getElem?_append_right hle,
        List.getElem?_append_right horigin, List.length_replicate]
      exact ih _
  | @sigma x y s u v hx hy _ ih =>
    cases i with
    | zero => exact .inr ⟨rfl, x, hx, y, hy, rfl, rfl⟩
    | succ i => exact ih i

/-- Without a sigma there is one folded form. -/
theorem eq_of_notMem (hsigma : 'Σ' ∉ s) : u = v := by
  induction h with
  | nil => rfl
  | other _ _ ih => rw [ih (mt (List.mem_cons_of_mem _) hsigma)]
  | sigma => exact absurd List.mem_cons_self hsigma

end SigmaVariants

theorem sigmaVariants_fold_append (a b : Text) :
    SigmaVariants (a ++ b) (fold (a ++ b)) (fold a ++ fold b) := by
  have hfirst := sigmaVariants_foldBetween [] b [] [] a
  have hsecond := sigmaVariants_foldBetween a.reverse [] [] [] b
  rw [foldBetween_nil] at hfirst
  rw [foldBetween_nil, foldBetween_nil] at hsecond
  rw [fold_append]
  exact hfirst.append hsecond

/-! ## Texts that can be folded on their own -/

namespace Inert

variable {c : Char} (h : Inert c)

include h

theorem fold_cons (s : Text) : fold (c :: s) = fold [c] ++ fold s := by
  have hsigma : c ≠ 'Σ' := by
    rintro rfl
    have hcased := h.cased
    revert hcased
    decide
  have hstop : meetsCased [c] = meetsCased [] := meetsCased_cons_of_inert h.cased h.ignorable []
  rw [fold, foldAfter, foldChar_of_ne_sigma hsigma, foldAfter_congr hstop]
  rw [fold, foldAfter, foldAfter, List.append_nil]
  rfl

theorem fold_append_cons (a b : Text) : fold (a ++ c :: b) = fold a ++ fold (c :: b) :=
  fold_append_of_inert h.cased h.ignorable a b

theorem fold_concat_append (a b : Text) : fold ((a ++ [c]) ++ b) = fold (a ++ [c]) ++ fold b := by
  rw [← List.append_cons, h.fold_append_cons, h.fold_cons, h.fold_append_cons a [],
    List.append_assoc]

end Inert

theorem inert_of_isWhitespace {c : Char} (h : isWhitespace c = true) : Inert c :=
  ⟨isCased_eq_false h, isIgnorable_eq_false h⟩

/-- Two texts of which neither can tell the other how to fold a sigma. -/
inductive Apart : Text → Text → Prop
  | nothing_before (b : Text) : Apart [] b
  | nothing_behind (a : Text) : Apart a []
  | inert_end {c : Char} (a b : Text) : Inert c → Apart (a ++ [c]) b
  | inert_start {c : Char} (a b : Text) : Inert c → Apart a (c :: b)
  | no_sigma {a b : Text} : 'Σ' ∉ a → 'Σ' ∉ b → Apart a b

theorem fold_append_of_apart {a b : Text} (h : Apart a b) : fold (a ++ b) = fold a ++ fold b := by
  cases h with
  | nothing_before => rfl
  | nothing_behind => rw [fold_nil, List.append_nil, List.append_nil]
  | inert_end a b hc => exact hc.fold_concat_append a b
  | inert_start a b hc => exact hc.fold_append_cons a b
  | no_sigma ha hb =>
    refine (sigmaVariants_fold_append a b).eq_of_notMem ?_
    rw [List.mem_append]
    exact not_or.mpr ⟨ha, hb⟩

/-- **Two texts folded as one are the two folded on their own but for the sigmas**: there are as many
code points and bytes, and where a code point differs both are small sigmas for one capital sigma.
Nothing differs between texts that are kept apart, as by a separator. -/
theorem fold_append_sigmas (a b : Text) :
    (fold (a ++ b)).length = (fold a ++ fold b).length ∧
      byteSize (fold (a ++ b)) = byteSize (fold a ++ fold b) ∧
      (origins (a ++ b)).length = (fold (a ++ b)).length ∧
      (∀ i : Nat, (fold (a ++ b))[i]? = (fold a ++ fold b)[i]? ∨
        (origins (a ++ b))[i]? = some 'Σ' ∧ ∃ x ∈ smallSigmas, ∃ y ∈ smallSigmas,
          (fold (a ++ b))[i]? = some x ∧ (fold a ++ fold b)[i]? = some y) ∧
      (Apart a b → fold (a ++ b) = fold a ++ fold b) ∧
      ∀ c, isWhitespace c = true → Inert c := by
  have hvariants := sigmaVariants_fold_append a b
  exact ⟨hvariants.length_eq, hvariants.byteSize_eq, hvariants.length_origins,
    hvariants.getElem?_eq_or, fold_append_of_apart, fun _ => inert_of_isWhitespace⟩

/-- The theorem at a sigma in front of a separator, and at one that looks into the second text past
a mark that can be ignored. -/
theorem fold_append_sigmas_open :
    Apart ['A', 'Σ', ' '] ['B'] ∧
      fold (['A', 'Σ', ' '] ++ ['B']) = fold ['A', 'Σ', ' '] ++ fold ['B'] ∧
      byteSize (fold (['A', 'Σ'] ++ ['.', 'B'])) = byteSize (fold ['A', 'Σ'] ++ fold ['.', 'B']) ∧
      fold (['A', 'Σ'] ++ ['.', 'B']) ≠ fold ['A', 'Σ'] ++ fold ['.', 'B'] := by
  obtain ⟨_, _, _, _, happend, hblank⟩ := fold_append_sigmas ['A', 'Σ', ' '] ['B']
  have hapart : Apart ['A', 'Σ', ' '] ['B'] := .inert_end ['A', 'Σ'] ['B'] (hblank ' ' (by decide))
  exact ⟨hapart, happend hapart, (fold_append_sigmas ['A', 'Σ'] ['.', 'B']).2.1, by decide +kernel⟩

end TermLexer.Text
