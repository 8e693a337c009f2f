import TermLexer.Proofs.Lexer.Pull

/-! # Tokens tile their text

The tokens of a text and the separators between them are the whole text, in order and without
overlap. `Laid` is the tiling as it comes out of the rules, one gap and one token at a time; `Tiles`
says the same from outside, by spans, slices and offsets. The first half of the file shows that
the tokens are laid, the second that what is laid tiles. -/

namespace TermLexer

open TermLexer.Text TermLexer.Unicode

/-! ## Tilings from outside -/

/-- The spans that tokens leave free between `pos` and `stop`. -/
def gapsFrom (stop pos : Nat) : List Token → List Span
  | [] => [⟨pos, stop⟩]
  | t :: ts => ⟨pos, t.span.start⟩ :: gapsFrom stop t.span.stop ts

/-- The spans before, between and after the tokens of a text. -/
def gaps (s : Text) (ts : List Token) : List Span := gapsFrom (byteSize s) 0 ts

def weave : List Text → List Text → Text
  | gap :: gaps, token :: tokens => gap ++ (token ++ weave gaps tokens)
  | gaps, _ => gaps.flatten

structure Tiles (s : Text) (ts : List Token) : Prop where
  inside : ∀ t ∈ ts, t.span.start < t.span.stop ∧ t.span.stop ≤ byteSize s ∧
    IsBoundary s t.span.start ∧ IsBoundary s t.span.stop
  cut : ∀ t ∈ ts, slice s t.span = .ok t.text ∧ t.span.length = .ok (byteSize t.text)
  ordered : ts.Pairwise fun a b => a.span.stop ≤ b.span.start
  /-- The gaps hold separators only, and with them the tokens give the text back. -/
  woven : ∃ blanks, (gaps s ts).mapM (slice s) = .ok blanks ∧
    (∀ gap ∈ blanks, ∀ c ∈ gap, isWhitespace c = true) ∧ weave blanks (ts.map Token.text) = s
  once : ∀ n, ts.countP (·.span.contains n) ≤ 1
  /-- An offset within a code point that is no separator lies in a token. -/
  covered : ∀ before c after, s = before ++ c :: after → isWhitespace c = false →
    ∀ n, byteSize before ≤ n → n < byteSize before + c.utf8Size →
      ts.countP (·.span.contains n) = 1

/-! ## Tilings step by step -/

/-- Tokens laid over a text that begins at offset `pos`, a gap before each and one at the end. -/
inductive Laid : Nat → Text → List Token → Prop
  | gap {pos : Nat} {blanks : Text} : (∀ b ∈ blanks, isWhitespace b = true) → Laid pos blanks []
  | token {pos : Nat} {blanks text rest : Text} {kind : Token.Kind} {ts : List Token} :
      (∀ b ∈ blanks, isWhitespace b = true) → text ≠ [] →
      Laid (pos + byteSize blanks + byteSize text) rest ts →
      Laid pos (blanks ++ (text ++ rest))
        (⟨kind, ⟨pos + byteSize blanks, pos + byteSize blanks + byteSize text⟩, text⟩ :: ts)

/-- A separator in front makes the first gap longer. -/
theorem Laid.cons_blank {pos : Nat} {c : Char} {s : Text} {ts : List Token}
    (hc : isWhitespace c = true) (h : Laid (pos + c.utf8Size) s ts) : Laid pos (c :: s) ts := by
  cases h with
  | gap hblanks => exact .gap (List.forall_mem_cons.mpr ⟨hc, hblanks⟩)
  | @token _ blanks text rest kind ts hblanks htext hrest =>
    have hpos : pos + c.utf8Size + byteSize blanks = pos + byteSize (c :: blanks) := by
      rw [byteSize_cons, Nat.add_assoc]
    rw [hpos] at hrest ⊢
    exact .token (List.forall_mem_cons.mpr ⟨hc, hblanks⟩) htext hrest

theorem laid_pieces (terms : Option TermSet) (pos : Nat) (s : Text) :
    Laid pos s (Piece.placeFrom pos (pieces terms s)) := by
  fun_induction pieces terms s generalizing pos with
  | case1 => exact .gap (by simp)
  | case2 c cs hc ih => exact (ih (pos + c.utf8Size)).cons_blank hc
  | case3 c cs _ ih =>
    have hrule := Rule.of_munch terms c cs
    have hblanks : ∀ b ∈ ([] : Text), isWhitespace b = true := List.forall_mem_nil _
    rw [← hrule.append_eq]
    exact .token hblanks hrule.token_ne_nil (ih _)

namespace Laid

variable {pos : Nat} {s : Text} {ts : List Token}

/-- Every token stands between two parts of the text. -/
theorem exists_parts (h : Laid pos s ts) : ∀ t ∈ ts, ∃ before after,
    s = before ++ (t.text ++ after) ∧ t.text ≠ [] ∧
      t.span = ⟨pos + byteSize before, pos + byteSize before + byteSize t.text⟩ := by
  induction h with
  | gap _ => simp
  | @token pos blanks text rest kind ts _ htext _ ih =>
    intro t ht
    rcases List.mem_cons.mp ht with rfl | ht
    · exact ⟨blanks, rest, rfl, htext, rfl⟩
    · obtain ⟨before, after, rfl, hne, hspan⟩ := ih t ht
      refine ⟨blanks ++ (text ++ before), after, by simp, hne, ?_⟩
      rw [hspan, byteSize_append, byteSize_append, Nat.add_assoc, Nat.add_assoc]

theorem start_lt_stop (h : Laid pos s ts) {t : Token} (ht : t ∈ ts) :
    pos ≤ t.span.start ∧ t.span.start < t.span.stop := by
  obtain ⟨before, after, _, hne, hspan⟩ := h.exists_parts t ht
  have hsize := mt byteSize_eq_zero.mp hne
  rw [hspan]
  exact ⟨Nat.le_add_right _ _, by simp only; omega⟩

theorem pairwise (h : Laid pos s ts) : ts.Pairwise fun a b => a.span.stop ≤ b.span.start := by
  induction h with
  | gap _ => exact .nil
  | token _ _ hrest ih =>
    refine List.pairwise_cons.mpr ⟨?_, ih⟩
    intro t ht
    exact (hrest.start_lt_stop ht).1

/-- The gaps are cut out of the whole text, of which `done` is the part before `pos`. -/
theorem woven (h : Laid pos s ts) (done : Text) (hdone : byteSize done = pos) :
    ∃ blanks, (gapsFrom (byteSize (done ++ s)) pos ts).mapM (slice (done ++ s)) = .ok blanks ∧
      (∀ gap ∈ blanks, ∀ c ∈ gap, isWhitespace c = true) ∧ weave blanks (ts.map Token.text) = s := by
  induction h generalizing done with
  | @gap pos blanks hblanks =>
    have hslice := slice_append done blanks []
    rw [List.append_nil] at hslice
    refine ⟨[blanks], ?_, by simpa using hblanks, by simp [weave]⟩
    rw [gapsFrom, byteSize_append, ← hdone, List.mapM_cons, hslice]
    rfl
  | @token pos blanks text rest kind ts hblanks _ _ ih =>
    have hsize : byteSize (done ++ blanks ++ text) = pos + byteSize blanks + byteSize text := by
      rw [byteSize_append, byteSize_append, hdone]
    obtain ⟨others, hothers, hall, hweave⟩ := ih (done ++ blanks ++ text) hsize
    have hslice := slice_append done blanks (text ++ rest)
    rw [List.append_assoc, List.append_assoc] at hothers
    refine ⟨blanks :: others, ?_, List.forall_mem_cons.mpr ⟨hblanks, hall⟩, ?_⟩
    · rw [gapsFrom, List.mapM_cons, hothers, ← hdone, hslice]
      rfl
    · rw [List.map_cons, weave, hweave]

/-- A code point that is no separator lies in a token, with all its bytes. -/
theorem exists_contains (h : Laid pos s ts) {before after : Text} {c : Char}
    (hs : s = before ++ c :: after) (hc : isWhitespace c = false) {n : Nat}
    (hle : pos + byteSize before ≤ n) (hlt : n < pos + byteSize before + c.utf8Size) :
    ∃ t ∈ ts, t.span.contains n = true := by
  have hblank : ∀ {blanks u v : Text}, (∀ b ∈ blanks, isWhitespace b = true) →
      blanks ≠ u ++ c :: v := by
    rintro blanks u v hblanks rfl
    rw [hblanks c (by simp)] at hc
    cases hc
  induction h generalizing before with
  | gap hblanks => exact absurd hs (hblank hblanks)
  | @token pos blanks text rest kind ts hblanks _ _ ih =>
    -- the code point lies in the gap, in the token or in what follows
    rcases append_eq_append_cons hs with ⟨u, hu, _⟩ | ⟨u, rfl, htail⟩
    · exact absurd hu (hblank hblanks)
    · rw [byteSize_append] at hle hlt
      rcases append_eq_append_cons htail with ⟨v, rfl, _⟩ | ⟨v, rfl, hrest⟩
      · refine ⟨_, List.mem_cons_self, ?_⟩
        simp only [Span.contains_eq_true, byteSize_append, byteSize_cons]
        omega
      · rw [byteSize_append] at hle hlt
        obtain ⟨t, ht, hcontains⟩ := ih hrest (by omega) (by omega)
        exact ⟨t, List.mem_cons_of_mem _ ht, hcontains⟩

/-- Tokens that do not overlap share no offset. -/
theorem countP_contains_le (h : Laid pos s ts) (n : Nat) : ts.countP (·.span.contains n) ≤ 1 := by
  induction h with
  | gap _ => exact Nat.zero_le 1
  | @token pos blanks text rest kind ts _ _ hrest ih =>
    rw [List.countP_cons]
    split
    · rename_i hn
      have hzero : ts.countP (·.span.contains n) = 0 := by
        rw [List.countP_eq_zero]
        intro t ht hcontains
        have hstart := (hrest.start_lt_stop ht).1
        simp only [Span.contains_eq_true] at hn hcontains
        omega
      omega
    · exact ih

theorem tiles (h : Laid 0 s ts) : Tiles s ts where
  inside := by
    intro t ht
    obtain ⟨before, after, rfl, _, hspan⟩ := h.exists_parts t ht
    have hlt := (h.start_lt_stop ht).2
    rw [Nat.zero_add] at hspan
    refine ⟨hlt, ?_, ?_, ?_⟩
    · rw [hspan]
      simp only [byteSize_append]
      omega
    · rw [hspan]
      exact ⟨before, t.text ++ after, rfl, rfl⟩
    · rw [hspan]
      exact ⟨before ++ t.text, after, (List.append_assoc ..).symm, byteSize_append ..⟩
  cut := by
    intro t ht
    obtain ⟨before, after, rfl, _, hspan⟩ := h.exists_parts t ht
    rw [hspan, Nat.zero_add]
    refine ⟨slice_append before t.text after, ?_⟩
    rw [Span.length, distance_of_le (Nat.le_add_right _ _), Nat.add_sub_cancel_left]
  ordered := h.pairwise
  woven := h.woven [] rfl
  once := h.countP_contains_le
  covered := by
    intro before c after hs hc n hle hlt
    obtain ⟨t, ht, hcontains⟩ := h.exists_contains hs hc (n := n) (by omega) (by omega)
    have hpos : 0 < ts.countP (·.span.contains n) :=
      List.countP_pos_iff.mpr ⟨t, ht, hcontains⟩
    have hone := h.countP_contains_le n
    omega

end Laid

/-! ## The tokens of a stream -/

/-- **The tokens that a stream gives with their spans tile its folded text.** -/
theorem spanned_collect_tiles (text : Text) (terms : Option TermSet) :
    ∃ ts, (Stream.ofText text terms).run [.intoSpanned, .collect] =
        .ok [(.done, .spanned (.ofText text terms)), (.tokens ts, .spent)] ∧
      Tiles (fold text) ts :=
  ⟨tokens terms (fold text), Stream.run_intoSpanned_collect text terms,
    (laid_pieces terms 0 (fold text)).tiles⟩

end TermLexer
