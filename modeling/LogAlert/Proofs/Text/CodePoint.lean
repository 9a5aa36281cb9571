/-
# LogAlert.Proofs.Text.CodePoint -- texts and their code points

Characters are code points, so that every text can be taken for a list of them and back.  The other
direction loses the surrogates; what is written in their place, and when nothing can be
(`written_eq_ok`), is up to the bytes that they keep.
-/
import Mathlib.Data.List.TakeDrop
import LogAlert.Proofs.Text.Normal
import LogAlert.Text.CodePoint

set_option autoImplicit false

namespace LogAlert.Text

namespace CodePoint

variable {points : List CodePoint}

theorem toText_ofText (text : String) : toText (ofText text) = text := by
  have chars : text.toList.filterMap some = text.toList := List.filterMap_some
  rw [toText, ofText, List.filterMap_map]
  exact (congrArg String.ofList chars).trans String.ofList_toList

theorem ofText_joined (separator : String) (texts : List String) :
    ofText (Value.joined separator texts) = (ofText separator).intercalate (texts.map ofText) := by
  rw [Value.joined, ofText, String.toList_intercalate]
  induction texts with
  | nil => rfl
  | cons text others ih =>
      cases others with
      | nil => simp [ofText]
      | cons next others =>
          simp only [List.map_cons, List.intercalate_cons_cons, List.map_append] at ih ⊢
          rw [ih]
          rfl

/-- Code points that are characters make up a text. -/
theorem ofText_toText (chars : ∀ c ∈ points, c.char?.isSome = true) :
    ofText (toText points) = points := by
  induction points with
  | nil => rfl
  | cons c points ih =>
      have isChar := chars c List.mem_cons_self
      have others := ih fun d member => chars d (List.mem_cons_of_mem c member)
      cases c with
      | surrogate place => cases isChar
      | char c =>
          simp only [ofText, toText, String.toList_ofList] at others
          simp only [ofText, toText, List.filterMap_cons, char?, String.toList_ofList, List.map_cons]
          exact congrArg _ others

theorem unencodable?_eq_none (encoding : Encoding) (starts goesOn : CodePoint → Bool)
    (points : List CodePoint) :
    unencodable? encoding starts goesOn points = none ↔ ∀ c ∈ points, starts c = false := by
  rw [unencodable?, List.span_eq_takeWhile_dropWhile]
  cases behind : points.dropWhile (!starts ·) with
  | nil =>
      rw [List.dropWhile_eq_nil_iff] at behind
      simpa using behind
  | cons c rest =>
      have here : c ∈ points := (List.dropWhile_suffix _).subset (behind ▸ List.mem_cons_self)
      have starting := head?_dropWhile (!starts ·) points c (by rw [behind]; rfl)
      simp only [reduceCtorEq, false_iff, not_forall]
      exact ⟨c, here, by simpa using starting⟩

theorem written_eq_ok :
    (∃ text, written points = .ok text) ↔ ∀ c ∈ points, c.isEncodable = true := by
  have encodable := unencodable?_eq_none .utf8 (!isEncodable ·) (·.char?.isNone) points
  simp only [Bool.not_eq_false'] at encodable
  rw [← encodable, written]
  cases unencodable? .utf8 (!isEncodable ·) (·.char?.isNone) points <;> simp

/-- A text without surrogates is written as it stands. -/
theorem written_of_chars (chars : ∀ c ∈ points, c.char?.isSome = true) :
    written points = .ok (toText points) := by
  have encodable : unencodable? .utf8 (!isEncodable ·) (·.char?.isNone) points = none :=
    (unencodable?_eq_none ..).2 fun c member => by simp [isEncodable, chars c member]
  have all : points.all (·.char?.isSome) = true := List.all_eq_true.2 chars
  simp only [written, encodable, all, if_true]

end CodePoint

end LogAlert.Text
