import EventContract.Name.Pascal
import EventContract.Proofs.TextLines
import Mathlib

/-! # Names made identifiers

What is made of a name for use in code is an identifier, whatever the name.
-/

namespace EventContract.Name

variable {cs : List Char} {c : Char}

theorem isIdentifierChar_of_mem (h : isIdentifierChars cs = true) :
    ∀ c ∈ cs, isIdentifierChar c = true := by
  cases cs with
  | nil => simp
  | cons first rest =>
      simp only [isIdentifierChars, Bool.and_eq_true, List.all_eq_true] at h
      exact List.forall_mem_cons.mpr ⟨h.1.1, h.2⟩

theorem isAlphanumeric_of_isAlpha (h : c.isAlpha = true) : isAlphanumeric c = true := by
  rw [isAlphanumeric, Char.isAlphanum, h, Bool.true_or]

theorem isAlphanumeric_of_isLower (h : c.isLower = true) : isAlphanumeric c = true :=
  isAlphanumeric_of_isAlpha (by rw [Char.isAlpha, h, Bool.or_true])

theorem isAlphanumeric_toUpper (h : isAlphanumeric c = true) : isAlphanumeric c.toUpper = true := by
  by_cases hlower : c.isLower = true
  · refine isAlphanumeric_of_isAlpha ?_
    rw [Char.isAlpha_toUpper_eq_isAlpha, Char.isAlpha, hlower, Bool.or_true]
  · rwa [Char.toUpper_eq_of_not_isLower hlower]

theorem isAlpha_eq_false_of_isDigit (h : c.isDigit = true) : c.isAlpha = false := by
  grind [Char.isDigit, Char.isAlpha, Char.isUpper, Char.isLower]

theorem isAlphanumeric_of_mem_capitalised {fresh : Bool} (h : c ∈ capitalised fresh cs) :
    isAlphanumeric c = true := by
  fun_induction capitalised fresh cs with
  | case1 => cases h
  | case2 fresh d rest hseparates ih => exact ih h
  | case3 fresh d rest hword ih =>
      have hd : isAlphanumeric d = true := by simpa using hword
      rcases List.mem_cons.mp h with rfl | hrest
      · split
        · exact isAlphanumeric_toUpper hd
        · exact hd
      · exact ih hrest

theorem all_capitalised (fresh : Bool) (cs : List Char) :
    (capitalised fresh cs).all isIdentifierChar = true := by
  rw [List.all_eq_true]
  intro c hc
  rw [isIdentifierChar, isAlphanumeric_of_mem_capitalised hc, Bool.or_true]

theorem isIdentifier_pascal (name : String) : isIdentifier (pascal name) = true := by
  rw [isIdentifier, pascal, String.toList_ofList]
  exact isIdentifierChars_guardFront (all_capitalised true _)

theorem isIdentifier_append {a b : String} (ha : isIdentifier a = true)
    (hb : ∀ c ∈ b.toList, isIdentifierChar c = true) : isIdentifier (a ++ b) = true := by
  rw [isIdentifier, String.toList_append]
  unfold isIdentifier at ha
  cases ha' : a.toList with
  | nil =>
      rw [ha'] at ha
      cases ha
  | cons first rest =>
      rw [ha'] at ha
      simp only [isIdentifierChars, Bool.and_eq_true, List.cons_append, List.all_append,
        List.all_eq_true] at ha ⊢
      exact ⟨ha.1, ha.2, hb⟩

theorem isIdentifier_payloadType (name : String) : isIdentifier (payloadType name) = true :=
  isIdentifier_append (isIdentifier_pascal name)
    (isIdentifierChar_of_mem (show isIdentifier "Event" = true by decide))

theorem isIdentifier_publisher (name : String) : isIdentifier (publisher name) = true :=
  isIdentifier_append (by decide) (isIdentifierChar_of_mem (isIdentifier_pascal name))

theorem oneLine_of_isIdentifier {text : String} (h : isIdentifier text = true) :
    Text.OneLine text := by
  intro hfeed
  have hchar := isIdentifierChar_of_mem h _ hfeed
  exact absurd hchar (by decide)

end EventContract.Name
