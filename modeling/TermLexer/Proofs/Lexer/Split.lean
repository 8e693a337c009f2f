import TermLexer.Proofs.Lexer.Script
import TermLexer.Proofs.Text.Fold
import TermLexer.Proofs.Token.Context

/-! # Cutting a text where a stream stands

A stream that has made some pulls stands between two pieces of its text: behind the last token
pulled, or at the end once there was none. The pieces before that place hold the tokens pulled and
the pieces after it those that are left. Each half is folded already and its pieces are those of its
own text, so tokenizing the halves one by one gives the same tokens as tokenizing the whole. -/

namespace TermLexer

open TermLexer.Text

/-! ## Pieces and pulls -/

/-- The offset after `k` pulls of the tokens between `start` and `stop`. -/
def offsetAfter (start stop : Nat) (ts : List Token) : Nat → Nat
  | 0 => start
  | k + 1 => ts[k]?.elim stop (·.span.stop)

namespace Piece

theorem byteSize_flatMap_cons (pos : Nat) (p : Piece) (ps : List Piece) :
    pos + byteSize ((p :: ps).flatMap text) = pos + byteSize p.text + byteSize (ps.flatMap text) := by
  rw [List.flatMap_cons, byteSize_append, Nat.add_assoc]

theorem placeFrom_append (pos : Nat) (ps qs : List Piece) :
    placeFrom pos (ps ++ qs) =
      placeFrom pos ps ++ placeFrom (pos + byteSize (ps.flatMap text)) qs := by
  induction ps generalizing pos with
  | nil => rfl
  | cons p ps ih =>
    rw [byteSize_flatMap_cons]
    cases p with
    | blank c => exact ih (pos + c.utf8Size)
    | token kind t =>
      rw [List.cons_append, placeFrom, ih]
      rfl

/-- The pieces that `k` pulls go through: those up to the `k`-th token, or all. -/
def front : Nat → List Piece → List Piece
  | 0, _ => []
  | _ + 1, [] => []
  | k + 1, blank c :: ps => blank c :: front (k + 1) ps
  | k + 1, token kind t :: ps => token kind t :: front k ps

theorem front_isPrefix (k : Nat) (ps : List Piece) : front k ps <+: ps := by
  fun_induction front k ps with
  | case1 => exact List.nil_prefix
  | case2 => exact List.nil_prefix
  | case3 k c ps ih => exact List.cons_prefix_cons.mpr ⟨rfl, ih⟩
  | case4 k kind t ps ih => exact List.cons_prefix_cons.mpr ⟨rfl, ih⟩

theorem placeFrom_front (k pos : Nat) (ps : List Piece) :
    placeFrom pos (front k ps) = (placeFrom pos ps).take k := by
  fun_induction front k ps generalizing pos with
  | case1 => rfl
  | case2 => rfl
  | case3 k c ps ih => exact ih (pos + c.utf8Size)
  | case4 k kind t ps ih => exact congrArg (_ :: ·) (ih (pos + byteSize t))

theorem offset_front (k pos : Nat) (ps : List Piece) :
    pos + byteSize ((front k ps).flatMap text) =
      offsetAfter pos (pos + byteSize (ps.flatMap text)) (placeFrom pos ps) k := by
  fun_induction front k ps generalizing pos with
  | case1 => rfl
  | case2 => rfl
  | case3 k c ps ih =>
    rw [byteSize_flatMap_cons, byteSize_flatMap_cons]
    exact ih (pos + c.utf8Size)
  | case4 k kind t ps ih =>
    rw [byteSize_flatMap_cons, byteSize_flatMap_cons]
    -- the end of the first token is where the other pulls start
    have hrest := ih (pos + byteSize t)
    cases k with
    | zero => exact hrest
    | succ k => exact hrest

end Piece

/-- After `k` pulls of a text its tokens are cut in two, and so is the text. -/
theorem exists_cut (terms : Option TermSet) (s : Text) (k : Nat) : ∃ before after,
    s = before ++ after ∧ byteSize before = offsetAfter 0 (byteSize s) (tokens terms s) k ∧
    (pieces terms before).filterMap Piece.word? = ((tokens terms s).take k).map Token.text ∧
    (pieces terms after).filterMap Piece.word? = ((tokens terms s).drop k).map Token.text := by
  obtain ⟨back, hback⟩ := Piece.front_isPrefix k (pieces terms s)
  have hoffset := Piece.offset_front k 0 (pieces terms s)
  have htake := Piece.placeFrom_front k 0 (pieces terms s)
  have hplaces := Piece.placeFrom_append 0 (Piece.front k (pieces terms s)) back
  obtain ⟨hbefore, hafter⟩ := pieces_flatMap_text hback.symm
  rw [flatMap_text_pieces, Nat.zero_add, Nat.zero_add] at hoffset
  rw [hback, htake] at hplaces
  have hdrop := List.append_cancel_left ((List.take_append_drop k _).trans hplaces)
  refine ⟨_, back.flatMap Piece.text, ?_, hoffset, ?_, ?_⟩
  · rw [← List.flatMap_append, hback, flatMap_text_pieces]
  · rw [hbefore, ← Piece.map_text_placeFrom 0, htake, tokens]
  · rw [hafter, ← Piece.map_text_placeFrom _ back, ← hdrop, tokens]

/-! ## Spans that are pulled -/

theorem Script.position_eq (s : Script) (k : Nat) :
    s.position k = offsetAfter 0 (byteSize s.text) s.tokens k := by
  cases k <;> rfl

/-- What `k` pulls of spans are answered, whatever is asked after them. -/
theorem Script.exists_spans (s : Script) (i k : Nat) (requests : List Stream.Request) :
    ∃ spans : List (Option Span),
      (s.run (.plain i) (List.replicate k .nextSpan ++ requests)).map Prod.fst =
        spans.map .span ++ (s.run (.plain (i + k)) requests).map Prod.fst ∧
      spans.filterMap id = ((s.tokens.drop i).take k).map Token.span := by
  induction k generalizing i with
  | zero => exact ⟨[], rfl, rfl⟩
  | succ k ih =>
    obtain ⟨spans, hrun, hspans⟩ := ih (i + 1)
    refine ⟨s.tokens[i]?.map Token.span :: spans, ?_, ?_⟩
    · rw [Nat.add_right_comm] at hrun
      exact congrArg (_ :: ·) hrun
    · rw [List.filterMap_cons, hspans]
      cases hi : s.tokens[i]? with
      | none =>
        have hle := List.getElem?_eq_none_iff.mp hi
        simp [List.drop_of_length_le hle, List.drop_of_length_le (Nat.le_succ_of_le hle)]
      | some t =>
        obtain ⟨hlt, rfl⟩ := List.getElem?_eq_some_iff.mp hi
        rw [List.drop_eq_getElem_cons hlt]
        rfl

theorem mapM_slice_span {s : Text} {ts : List Token}
    (h : ∀ t ∈ ts, slice s t.span = .ok t.text) :
    (ts.map Token.span).mapM (slice s) = .ok (ts.map Token.text) := by
  induction ts with
  | nil => rfl
  | cons t ts ih =>
    rw [List.map_cons, List.mapM_cons, h t List.mem_cons_self,
      ih fun u hu => h u (List.mem_cons_of_mem _ hu)]
    rfl

/-- **A text can be cut where a stream over it stands**: the part before gives the tokens pulled and
the part after it those that are left, each tokenized on its own. -/
theorem tokenize_halves (text : Text) (terms : Option TermSet) (k : Nat) :
    ∃ (answers : List (Stream.Reply × Stream)) (spans : List (Option Span)) (pos : Nat)
      (before after : Text),
      (Stream.ofText text terms).run (List.replicate k .nextSpan ++ [.position, .intoTokens]) =
        .ok answers ∧
      answers.map Prod.fst =
        spans.map .span ++ [.position pos, .texts (tokenize after terms)] ∧
      takeBytes (fold text) pos = some before ∧ dropBytes (fold text) pos = some after ∧
      (spans.filterMap id).mapM (slice (fold text)) = .ok (tokenize before terms) ∧
      tokenize text terms = tokenize before terms ++ tokenize after terms := by
  have hrun := Script.run_ofText text terms
    (List.replicate k .nextSpan ++ [.position, .intoTokens])
  obtain ⟨spans, hreplies, hspans⟩ :=
    (Script.ofText text terms).exists_spans 0 k [.position, .intoTokens]
  obtain ⟨before, after, hcut, hpos, hbefore, hafter⟩ := exists_cut terms (fold text) k
  have hfront : fold before = before := fold_of_infix ⟨[], after, by rw [hcut]; rfl⟩
  have hback : fold after = after := fold_of_infix ⟨before, [], by rw [hcut, List.append_nil]⟩
  have hpulled := tokenize_eq before terms
  have hleft := tokenize_eq after terms
  rw [hfront, hbefore] at hpulled
  rw [hback, hafter] at hleft
  have hend : ((Script.ofText text terms).run (.plain k) [.position, .intoTokens]).map Prod.fst =
      [.position (byteSize before), .texts (tokenize after terms)] := by
    have hposition := (Script.ofText text terms).position_eq k
    rw [hleft, hpos]
    exact congrArg (fun pos => [Stream.Reply.position pos, _]) hposition
  refine ⟨_, spans, byteSize before, before, after, hrun, ?_, ?_, ?_, ?_, ?_⟩
  · rw [hreplies, Nat.zero_add, hend]
  · rw [hcut, takeBytes_append]
  · rw [hcut, dropBytes_append]
  · have hslices := (laid_pieces terms 0 (fold text)).tiles.cut
    rw [hspans, hpulled]
    exact mapM_slice_span fun t ht => (hslices t (List.mem_of_mem_take ht)).1
  · rw [hpulled, hleft, ← List.map_append, List.take_append_drop]
    rfl

end TermLexer
