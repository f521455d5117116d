/-!
# Delimited encodings

An encoding is delimited when a value and its end can be told from any
continuation.  Concatenations of delimited encodings are taken apart one by
one.
-/

namespace NimiqApp
namespace Foundation

/-- The encoding in front of a list determines the value and the rest. -/
def Delimited (encode : α → List β) : Prop :=
  ∀ left right rest tail,
    encode left ++ rest = encode right ++ tail → left = right ∧ rest = tail

namespace Delimited

/-- A delimited encoding determines its value. -/
theorem injective
    {encode : α → List β}
    (delimited : Delimited encode)
    (equal : encode left = encode right) :
    left = right :=
  (delimited left right [] [] (by rw [equal])).1

/-- An injective encoding of fixed length is delimited. -/
theorem of_length
    {encode : α → List β}
    (size : ∀ value, (encode value).length = count)
    (distinct : ∀ left right, encode left = encode right → left = right) :
    Delimited encode := by
  intro left right rest tail equal
  obtain ⟨same, ends⟩ :=
    List.append_inj equal (by rw [size left, size right])
  exact ⟨distinct left right same, ends⟩

/-- A single element is delimited. -/
theorem singleton : Delimited fun value : β => [value] :=
  of_length (fun _ => rfl) fun _ _ equal => (List.cons.inj equal).1

/-- A list of fixed length is delimited. -/
theorem sized (count : Nat) :
    Delimited fun list : { list : List β // list.length = count } =>
      list.val :=
  of_length (fun list => list.property) fun _ _ equal => Subtype.ext equal

end Delimited
end Foundation
end NimiqApp
