import TermLexer.Proofs.Term.Canonical
import TermLexer.Proofs.Term.Leading

/-! # A term between separators

A separator stops folding on both sides, so a term that stands between two separators stands in the
folded text as it stands in the set. The code point behind the first separator lies in a token. If
that token begins there, it is a special token, for a term matches, and the longest match begins
with the term. Otherwise the token holds the separator, and only special tokens hold separators. -/

namespace TermLexer

open TermLexer.Text TermLexer.Unicode

/-! ## Tokens at an offset -/

/-- A special token at offset `q` that begins with a term. -/
structure Token.LeadsWith (t : Token) (q : Nat) (term : Text) : Prop where
  special : t.kind = .special
  start_eq : t.span.start = q
  leads : term <+: t.text

/-- A special token with a separator in it that begins before offset `q` and ends behind it. -/
structure Token.Straddles (t : Token) (q : Nat) : Prop where
  special : t.kind = .special
  start_lt : t.span.start < q
  lt_stop : q < t.span.stop
  spaced : ∃ c ∈ t.text, isWhitespace c = true

/-- No run has a separator in it, and no symbol is one. -/
theorem Lexeme.special_of_blank {terms : Option TermSet} {c x : Char} {kind : Token.Kind}
    {token after : Text} (h : Lexeme terms c kind token after) (hmem : x ∈ token)
    (hx : isWhitespace x = true) : kind = .special := by
  cases kind with
  | special => rfl
  | number =>
    have hpass := (h.digits rfl).passes x hmem
    rw [isNumeric_eq_false hx] at hpass
    cases hpass
  | word =>
    have hpass := (h.letters rfl).passes x hmem
    rw [isAlphanumeric_eq_false hx] at hpass
    cases hpass
  | symbol =>
    rw [h.symbol rfl, List.mem_singleton] at hmem
    have hsolid := h.solid
    rw [← hmem, hx] at hsolid
    cases hsolid

/-- Where a term stands in front, the token there is a special one that begins with it. -/
theorem Lexeme.leads {terms : Option TermSet} {c : Char} {kind : Token.Kind}
    {token after term : Text} (h : Lexeme terms c kind token after) (hmem : term ∈ keptTerms terms)
    (hfront : term <+: token ++ after) : kind = .special ∧ term <+: token := by
  have hkind := h.special.mpr ⟨term, hmem, hfront⟩
  have hle := (h.longest hkind).2 term hmem hfront
  obtain ⟨tail, happend⟩ := hfront
  obtain ⟨u, rfl, _⟩ := exists_append_of_byteSize_le happend hle
  exact ⟨hkind, List.prefix_append _ _⟩

/-- A token of a text obeys the lexical grammar where it stands. -/
theorem exists_lexeme {terms : Option TermSet} {s : Text} {t : Token} (ht : t ∈ tokens terms s) :
    ∃ before after c, s = before ++ (t.text ++ after) ∧
      t.span = ⟨byteSize before, byteSize before + byteSize t.text⟩ ∧
      Lexeme terms c t.kind t.text after := by
  obtain ⟨before, after, hs, _, hspan⟩ := (laid_pieces terms 0 s).exists_parts t ht
  obtain ⟨before', token, after', c, hs', hspan', hlexeme⟩ :=
    (segments_tokens terms s).obeys t.event (List.mem_map_of_mem ht)
  have hends := hspan.symm.trans hspan'
  rw [Nat.zero_add, Span.mk.injEq] at hends
  obtain ⟨rfl, hrest⟩ := append_inj_of_byteSize (hs.symm.trans hs') hends.1
  obtain ⟨rfl, rfl⟩ := append_inj_of_byteSize hrest (by omega)
  rw [Nat.zero_add] at hspan
  exact ⟨before, after, c, hs, hspan, hlexeme⟩

/-- A part that lies across a cut has the code point in front of the cut. -/
theorem mem_of_across {before part after done rest : Text} {x : Char}
    (h : before ++ (part ++ after) = (done ++ [x]) ++ rest)
    (hstart : byteSize before < byteSize (done ++ [x]))
    (hstop : byteSize (done ++ [x]) < byteSize before + byteSize part) : x ∈ part := by
  obtain ⟨m, hm, hrest⟩ := exists_append_of_byteSize_le h (Nat.le_of_lt hstart)
  have hsize := congrArg byteSize hm
  rw [byteSize_append before] at hsize
  obtain ⟨u, rfl, _⟩ := exists_append_of_byteSize_le hrest.symm (by omega)
  rcases List.eq_nil_or_concat m with rfl | ⟨m, y, rfl⟩
  · rw [byteSize_nil] at hsize
    omega
  · rw [List.concat_eq_append, ← List.append_assoc] at hm
    obtain rfl : x = y := List.singleton_inj.mp (List.append_inj' hm rfl).2
    simp

/-- The token of the code point behind a separator begins there, or it is a term with the separator
in it. -/
theorem exists_token_behind_blank (terms : Option TermSet) {x c : Char} (done rest : Text)
    (hx : isWhitespace x = true) (hc : isWhitespace c = false) :
    ∃ t ∈ tokens terms (done ++ x :: c :: rest),
      (t.Straddles (byteSize done + x.utf8Size) ∧ t.text ∈ keptTerms terms) ∨
        t.span.start = byteSize done + x.utf8Size ∧
          ∃ d after, t.text ++ after = c :: rest ∧ Lexeme terms d t.kind t.text after := by
  have hs : done ++ x :: c :: rest = (done ++ [x]) ++ c :: rest := List.append_cons ..
  have hq : byteSize (done ++ [x]) = byteSize done + x.utf8Size := by simp
  have hpos := c.utf8Size_pos
  obtain ⟨t, ht, hcontains⟩ := (laid_pieces terms 0 _).exists_contains hs hc
    (n := byteSize (done ++ [x])) (by omega) (by omega)
  obtain ⟨before, after, d, hparts, hspan, hlexeme⟩ := exists_lexeme ht
  rw [hspan, Span.contains_eq_true] at hcontains
  rw [hs] at hparts
  refine ⟨t, ht, ?_⟩
  rw [← hq, hspan]
  rcases Nat.eq_or_lt_of_le hcontains.1 with hstart | hstart
  · exact .inr ⟨hstart, d, after, (append_inj_of_byteSize hparts.symm hstart).2, hlexeme⟩
  · have hmem := mem_of_across hparts.symm hstart hcontains.2
    have hkind := hlexeme.special_of_blank hmem hx
    refine .inl ⟨⟨hkind, ?_, ?_, x, hmem, hx⟩, (hlexeme.longest hkind).1⟩
    · rwa [hspan]
    · rw [hspan]
      exact hcontains.2

/-! ## The term -/

section

variable {p s v w : Text} {x y : Char} {texts : List Text} (hx : isWhitespace x = true)
  (hy : isWhitespace y = true) (hfold : fold v = fold w)

include hx hy hfold

theorem fold_enclosed :
    fold (p ++ x :: (v ++ y :: s)) = fold p ++ x :: (fold w ++ y :: fold s) := by
  rw [fold_append_blank hx, fold_append_blank hy, hfold]

/-- The token of the first code point of the term is a special one. It is cut out of the text from
there on, or it has the separator in it. -/
theorem exists_special_enclosed (hne : fold w ≠ [])
    (hsolid : ∀ c ∈ (fold w).head?, isWhitespace c = false) (hmem : w ∈ texts) :
    ∃ t ∈ tokens (some (.ofList texts)) (fold (p ++ x :: (v ++ y :: s))),
      t.text ∈ keptTerms (some (.ofList texts)) ∧
        (t.Straddles (byteSize (fold p) + x.utf8Size) ∨
          t.LeadsWith (byteSize (fold p) + x.utf8Size) (fold w) ∧
            t.text <+: fold w ++ y :: fold s) := by
  have hkept : fold w ∈ keptTerms (some (.ofList texts)) :=
    TermSet.mem_arrange.mpr ⟨hne, w, hmem, rfl⟩
  obtain ⟨c, cs, hw⟩ := List.exists_cons_of_ne_nil hne
  have hc : isWhitespace c = false := hsolid c (by rw [hw]; rfl)
  obtain ⟨t, ht, hcases⟩ := exists_token_behind_blank (some (.ofList texts)) (fold p)
    (cs ++ y :: fold s) hx hc
  rw [← List.cons_append, ← hw] at ht hcases
  rw [fold_enclosed hx hy hfold]
  refine ⟨t, ht, ?_⟩
  rcases hcases with ⟨hstraddles, hterm⟩ | ⟨hstart, d, after, happend, hlexeme⟩
  · exact ⟨hterm, .inl hstraddles⟩
  · have hfront : fold w <+: t.text ++ after := by
      rw [happend]
      exact List.prefix_append _ _
    obtain ⟨hkind, hleads⟩ := hlexeme.leads hkept hfront
    exact ⟨(hlexeme.longest hkind).1, .inr ⟨⟨hkind, hstart, hleads⟩, after, happend⟩⟩

end

/-- **A special term between two separators is emitted whole**: a special token begins where it
stands, and with it, unless a term with the first separator in it was found before. With no other
term in the set it is emitted in either case, and where no term has a separator in it the token is
the term. -/
theorem enclosed_term_emitted {p s v w : Text} {x y : Char} {texts : List Text}
    (hx : isWhitespace x = true) (hy : isWhitespace y = true) (hfold : fold v = fold w)
    (hne : fold w ≠ []) (hsolid : ∀ c ∈ (fold w).head?, isWhitespace c = false)
    (hmem : w ∈ texts) :
    ∃ ts, (Lexer.ofText (p ++ x :: (v ++ y :: s)) (some (.ofList texts))).drain = .ok ts ∧
      tokenize (p ++ x :: (v ++ y :: s)) (some (.ofList texts)) = ts.map Token.text ∧
      (∃ t ∈ ts, t.LeadsWith (byteSize (fold p) + x.utf8Size) (fold w) ∨
        t.Straddles (byteSize (fold p) + x.utf8Size)) ∧
      (texts = [w] → fold w ∈ ts.map Token.text) ∧
      (Unspaced (some (.ofList texts)) →
        ∃ t ∈ ts, t.LeadsWith (byteSize (fold p) + x.utf8Size) (fold w) ∧ t.text = fold w) := by
  obtain ⟨t, ht, hterm, hcases⟩ :=
    exists_special_enclosed (p := p) (s := s) hx hy hfold hne hsolid hmem
  refine ⟨_, Lexer.drain_ofText _ _, rfl, ⟨t, ht, ?_⟩, ?_, ?_⟩
  · exact hcases.symm.imp_left And.left
  · rintro rfl
    rw [keptTerms_singleton hne, List.mem_singleton] at hterm
    rw [← hterm]
    exact List.mem_map_of_mem ht
  · intro hterms
    rcases hcases with hstraddles | ⟨hleads, hfront⟩
    · obtain ⟨c, hc, hblank⟩ := hstraddles.spaced
      rw [hterms t.text hterm c hc] at hblank
      cases hblank
    · have hhead : ∀ c ∈ (y :: fold s).head?, isWhitespace c = true := by
        rintro c ⟨⟩
        exact hy
      have hshort := prefix_of_prefix_append (hterms t.text hterm) hhead hfront
      exact ⟨t, ht, hleads, hshort.eq_of_length_le hleads.leads.length_le⟩

/-- The theorem where the first of two overlapping occurrences of a term takes the separator in
front of the second, and where another term would be a shorter match. -/
theorem enclosed_term_emitted_overlap :
    isWhitespace ' ' = true ∧ isWhitespace '\u3000' = true ∧
      fold ['A', ' ', 'a'] = fold ['a', ' ', 'A'] ∧ fold ['a', ' ', 'A'] ≠ [] ∧
      (∀ c ∈ (fold ['a', ' ', 'A']).head?, isWhitespace c = false) ∧
      fold ['a', ' ', 'A'] ∈ tokenize (['A'] ++ ' ' :: (['A', ' ', 'a'] ++ '\u3000' :: []))
        (some (.ofList [['a', ' ', 'A']])) ∧
      fold ['C', '#'] ≠ [] ∧ (∀ c ∈ (fold ['C', '#']).head?, isWhitespace c = false) ∧
      Unspaced (some (.ofList [['c'], ['C', '#']])) ∧
      ∃ t ∈ tokens (some (.ofList [['c'], ['C', '#']]))
          (fold (['1'] ++ '\u3000' :: (['C', '#'] ++ ' ' :: ['!']))),
        t.LeadsWith 4 (fold ['C', '#']) ∧ t.text = fold ['C', '#'] := by
  have hspace : isWhitespace ' ' = true := by decide
  have hwide : isWhitespace '\u3000' = true := by decide
  have hfold : fold ['A', ' ', 'a'] = fold ['a', ' ', 'A'] := by decide +kernel
  have hne : fold ['a', ' ', 'A'] ≠ [] := mt fold_eq_nil.mp (List.cons_ne_nil _ _)
  have hsolid : ∀ c ∈ (fold ['a', ' ', 'A']).head?, isWhitespace c = false := by
    rintro c ⟨⟩
    decide
  have hsharp : fold ['C', '#'] ≠ [] := mt fold_eq_nil.mp (List.cons_ne_nil _ _)
  have hletter : ∀ c ∈ (fold ['C', '#']).head?, isWhitespace c = false := by
    rintro c ⟨⟩
    decide
  have hterms : Unspaced (some (.ofList [['c'], ['C', '#']])) := by decide +kernel
  refine ⟨hspace, hwide, hfold, hne, hsolid, ?_, hsharp, hletter, hterms, ?_⟩
  · obtain ⟨ts, _, htexts, _, honly, _⟩ := enclosed_term_emitted (p := ['A']) (s := []) hspace hwide
      hfold hne hsolid (List.mem_singleton_self _)
    rw [htexts]
    exact honly rfl
  · obtain ⟨ts, hdrain, _, _, _, hexact⟩ := enclosed_term_emitted (p := ['1']) (s := ['!']) hwide
      hspace rfl hsharp hletter (List.mem_cons_of_mem ['c'] (List.mem_singleton_self _))
    rw [← Lexer.eq_tokens_of_drain hdrain]
    exact hexact hterms

end TermLexer
