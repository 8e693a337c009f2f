import TermLexer.Fault
import TermLexer.Term.Index
import TermLexer.Term.Priority
import TermLexer.Text.Fold

/-!
# Term sets

A term set holds folded terms in match priority, each once and none empty, with their index by first
code point. Whatever list it is made from, only the set of folded terms matters. Membership walks
the ordered list and stops where the term would have stood; the longest term that a text begins
with is the first match along one bucket of the index.
-/

namespace TermLexer

open TermLexer.Text TermLexer.Term

namespace TermSet

/-! ## Ordered lists of terms -/

/-- Puts a term into an ordered list of terms, unless it is there already. -/
def insert (term : Text) : List Text → List Text
  | [] => [term]
  | other :: rest =>
    match priority term other with
    | .lt => term :: other :: rest
    | .eq => other :: rest
    | .gt => other :: insert term rest

/-- The ordered list of the folded terms, without the empty term. -/
def arrange (terms : List Text) : List Text :=
  ((terms.map fold).filter (!·.isEmpty)).foldr insert []

theorem eq_or_mem_of_mem_insert {term t : Text} {terms : List Text} (h : t ∈ insert term terms) :
    t = term ∨ t ∈ terms := by
  induction terms with
  | nil => exact .inl (List.mem_singleton.mp h)
  | cons other rest ih =>
    unfold insert at h
    split at h
    · exact List.mem_cons.mp h
    · exact .inr h
    · rcases List.mem_cons.mp h with rfl | h
      · exact .inr List.mem_cons_self
      · rcases ih h with rfl | h
        · exact .inl rfl
        · exact .inr (List.mem_cons_of_mem _ h)

theorem pairwise_insert (term : Text) {terms : List Text}
    (h : terms.Pairwise (priority · · = .lt)) : (insert term terms).Pairwise (priority · · = .lt) := by
  induction terms with
  | nil => exact List.pairwise_singleton _ _
  | cons other rest ih =>
    obtain ⟨hother, hrest⟩ := List.pairwise_cons.mp h
    unfold insert
    split
    · rename_i hlt
      refine List.pairwise_cons.mpr ⟨?_, h⟩
      intro t ht
      rcases List.mem_cons.mp ht with rfl | ht
      · exact hlt
      · exact Std.TransCmp.lt_trans hlt (hother t ht)
    · exact h
    · rename_i hgt
      refine List.pairwise_cons.mpr ⟨?_, ih hrest⟩
      intro t ht
      rcases eq_or_mem_of_mem_insert ht with rfl | ht
      · exact Std.OrientedCmp.gt_iff_lt.mp hgt
      · exact hother t ht

theorem pairwise_arrange (terms : List Text) :
    (arrange terms).Pairwise (priority · · = .lt) := by
  unfold arrange
  induction (terms.map fold).filter (!·.isEmpty) with
  | nil => exact .nil
  | cons t ts ih => exact pairwise_insert t ih

/-- Nothing stands in the ordered list that was not put there. -/
theorem mem_of_mem_foldr_insert {t : Text} {terms : List Text}
    (h : t ∈ terms.foldr insert []) : t ∈ terms := by
  induction terms with
  | nil => exact h
  | cons u us ih =>
    rcases eq_or_mem_of_mem_insert h with rfl | h
    · exact List.mem_cons_self
    · exact List.mem_cons_of_mem _ (ih h)

theorem nil_notMem_arrange (terms : List Text) : [] ∉ arrange terms := by
  intro h
  have hkept := (List.mem_filter.mp (mem_of_mem_foldr_insert h)).2
  simp at hkept

end TermSet

/-- Special terms in match priority, with their index. -/
structure TermSet where
  terms : List Text := []
  index : Index := []
  /-- Every term comes before the ones after it, so none stands there twice. -/
  ordered : terms.Pairwise (priority · · = .lt) := by exact .nil
  /-- A token has a code point, so no term is empty. -/
  nil_notMem : [] ∉ terms := by exact List.not_mem_nil
  indexed : index = Index.ofTerms terms := by rfl
  deriving Repr

namespace TermSet

def empty : TermSet := {}

def ofList (terms : List Text) : TermSet where
  terms := arrange terms
  index := Index.ofTerms (arrange terms)
  ordered := pairwise_arrange terms
  nil_notMem := nil_notMem_arrange terms

/-- The terms in match priority. -/
def toList (set : TermSet) : List Text := set.terms

def size (set : TermSet) : Nat := set.terms.length

def isEmpty (set : TermSet) : Bool := set.terms.isEmpty

instance : BEq TermSet where
  beq a b := a.terms == b.terms

/-- The term stands in an ordered list of terms. -/
def search (term : Text) : List Text → Bool
  | [] => false
  | other :: rest =>
    match priority term other with
    | .lt => false
    | .eq => true
    | .gt => search term rest

/-- The folded form of the text is a term of the set. -/
def contains (set : TermSet) (text : Text) : Bool := search (fold text) set.terms

/-- The terms that begin with a code point, in match priority. -/
def candidates (set : TermSet) (c : Char) : List Text :=
  (set.index.bucket c).filterMap (set.terms[·]?)

/-- The first term in match priority that the text begins with. The text is taken as it is: it
should be folded already. -/
def longestPrefix? (set : TermSet) : Text → Option Text
  | [] => none
  | c :: cs => (set.candidates c).find? (·.isPrefixOf (c :: cs))

/-- The first term along the given places of a list that the text begins with. -/
def firstMatch (terms : List Text) (text : Text) : List Nat → Except Fault (Option Text)
  | [] => return none
  | place :: places =>
    match terms[place]? with
    | none => .error (.unlisted place)
    | some term =>
      if term.isPrefixOf text then return some term else firstMatch terms text places

/-- What `longestPrefix?` finds, with every place of the index checked where it is read. -/
def lookup (set : TermSet) : Text → Except Fault (Option Text)
  | [] => return none
  | c :: cs => firstMatch set.terms (c :: cs) (set.index.bucket c)

@[simp] theorem toList_empty : empty.toList = [] := rfl

@[simp] theorem toList_ofList (terms : List Text) : (ofList terms).toList = arrange terms := rfl

/-- What is found is what the text begins with. -/
theorem isPrefix_of_longestPrefix? {set : TermSet} {text term : Text}
    (h : set.longestPrefix? text = some term) : term <+: text := by
  cases text with
  | nil => simp [longestPrefix?] at h
  | cons c cs =>
    have hfound : term.isPrefixOf (c :: cs) = true :=
      List.find?_some (p := (List.isPrefixOf · (c :: cs))) h
    exact List.isPrefixOf_iff_prefix.1 hfound

end TermSet

end TermLexer
