import Mathlib.Data.List.Sort
import TermLexer.Proofs.Text.Bytes
import TermLexer.Term.Priority

/-! # The order of terms

Different texts have different bytes, so two terms of one priority are one term, and no term stands
twice in a list where every term comes before the ones after it. Such a list holds its members in
the only order that there is: it is determined by which terms are in it. Of as many bytes the lesser
ones come first, which is to say the lesser code points. -/

namespace TermLexer.Term

open TermLexer.Text

instance : Std.LawfulEqCmp priority where
  eq_of_compare := by
    intro a b h
    obtain ⟨_, hbytes⟩ := Ordering.then_eq_eq.mp h
    exact utf8_injective (Std.LawfulEqCmp.eq_of_compare hbytes)

/-- A term comes before another if it has more bytes, or as many and they are less. -/
theorem priority_eq_lt_iff {a b : Text} : priority a b = .lt ↔
    byteSize b < byteSize a ∨ byteSize a = byteSize b ∧ utf8 a < utf8 b := by
  rw [priority, Ordering.then_eq_lt, Nat.compare_eq_lt, Nat.compare_eq_eq, compare_bytes_eq_lt_iff,
    eq_comm]

instance : Std.Irrefl fun a b : Text => priority a b = .lt where
  irrefl := by simp

instance : Std.Antisymm fun a b : Text => priority a b = .lt where
  antisymm := fun _ _ hab hba => absurd hba (Std.OrientedCmp.not_lt_of_lt hab)

/-! ## Laws of the order -/

theorem priority_trans {a b c : Text} {order : Ordering} (hab : priority a b = order)
    (hbc : priority b c = order) : priority a c = order := by
  cases order with
  | lt => exact Std.TransCmp.lt_trans hab hbc
  | eq => rw [Std.LawfulEqCmp.eq_of_compare hab, hbc]
  | gt => exact Std.TransCmp.gt_trans hab hbc

/-- A text comes before what it only begins with. -/
theorem priority_of_prefix {a b : Text} (h : a <+: b) (hne : a ≠ b) : priority b a = .lt := by
  obtain ⟨after, rfl⟩ := h
  refine priority_of_byteSize_lt ?_
  have hafter : after ≠ [] := by
    rintro rfl
    exact hne (List.append_nil a).symm
  have hsize := mt byteSize_eq_zero.mp hafter
  rw [byteSize_append]
  omega

/-- The order of the bytes is only asked for where the sizes do not decide. -/
theorem priority_of_byteSize_eq {a b : Text} (h : byteSize a = byteSize b) :
    priority a b = compare (utf8 a) (utf8 b) := by
  rw [priority, h, Std.ReflOrd.compare_self, Ordering.eq_then]

/-- **Match priority is a strict total order of the texts**: texts of one priority are the same, it
can be turned round and it is transitive. What a text begins with comes after the text, and texts
with as many bytes come in the order of their code points, for bytes compare as code points do. -/
theorem priority_laws (a b c : Text) :
    (priority a b = .eq ↔ a = b) ∧
      priority b a = (priority a b).swap ∧
      (∀ order, priority a b = order → priority b c = order → priority a c = order) ∧
      (a <+: b → a ≠ b → priority b a = .lt) ∧
      (byteSize a = byteSize b → priority a b = compare (utf8 a) (utf8 b) ∧
        priority a b = compare (a.map Char.toNat) (b.map Char.toNat)) ∧
      compare (utf8 a) (utf8 b) = compare (a.map Char.toNat) (b.map Char.toNat) := by
  refine ⟨Std.LawfulEqCmp.compare_eq_iff_eq, Std.OrientedCmp.eq_swap, ?_, priority_of_prefix, ?_,
    compare_utf8 a b⟩
  · exact fun _ => priority_trans
  · intro h
    have hbytes := priority_of_byteSize_eq h
    exact ⟨hbytes, hbytes.trans (compare_utf8 a b)⟩

/-- The laws at texts of four bytes that begin with code points of three and of four bytes, at a
shorter text, and at what one of them begins with. -/
theorem priority_laws_astral :
    priority ['～', 'a'] ['𝄞'] = .lt ∧ priority ['𝄞'] ['é'] = .lt ∧
      priority ['～', 'a'] ['é'] = .lt ∧
      byteSize ['～', 'a'] = byteSize ['𝄞'] ∧
      priority ['～', 'a'] ['𝄞'] = compare [0xff5e, 0x61] [0x1d11e] ∧
      ['～'] <+: ['～', 'a'] ∧ ['～'] ≠ ['～', 'a'] ∧
      priority ['～', 'a'] ['～'] = .lt := by
  have hfirst : priority ['～', 'a'] ['𝄞'] = .lt := by decide +kernel
  have hsecond : priority ['𝄞'] ['é'] = .lt := by decide +kernel
  have hsize : byteSize ['～', 'a'] = byteSize ['𝄞'] := by decide
  have hfront : ['～'] <+: ['～', 'a'] := ⟨['a'], rfl⟩
  have hne : ['～'] ≠ ['～', 'a'] := by decide
  obtain ⟨_, _, htrans, _, hpoints, _⟩ := priority_laws ['～', 'a'] ['𝄞'] ['é']
  obtain ⟨_, _, _, hlonger, _, _⟩ := priority_laws ['～'] ['～', 'a'] []
  exact ⟨hfirst, hsecond, htrans .lt hfirst hsecond, hsize, (hpoints hsize).2, hfront, hne,
    hlonger hfront hne⟩

end TermLexer.Term
