import Mathlib.Data.Set.Function
import PrinterSdk.Data.Digest

/-!
# Self-delimiting encodings

An encoding is self-delimiting when its end can be told from what was read: two encodings
at the start of one string are those of the same value.  Lists of such values can be
written one after the other without a count, and a field behind its length is one.
-/

namespace PrinterSdk.Data

section

variable {α β γ δ : Type}

/-- Two encodings at the start of one string are those of the same value. -/
def SelfDelimiting (values : Set α) (encode : α → List β) : Prop :=
  ∀ first ∈ values, ∀ second ∈ values, ∀ rest others,
    encode first ++ rest = encode second ++ others → first = second ∧ rest = others

variable {values : Set α} {encode : α → List β}

/-- Values written one after the other are determined by the whole string. -/
theorem SelfDelimiting.flatMap_inj (delimits : SelfDelimiting values encode)
    (written : ∀ value ∈ values, encode value ≠ []) {firsts seconds : List α}
    (inside : ∀ value ∈ firsts, value ∈ values) (also : ∀ value ∈ seconds, value ∈ values)
    (same : firsts.flatMap encode = seconds.flatMap encode) : firsts = seconds := by
  induction firsts generalizing seconds with
  | nil =>
      cases seconds with
      | nil => rfl
      | cons second seconds =>
          obtain ⟨here, -⟩ := List.forall_mem_cons.mp also
          rw [List.flatMap_nil, List.flatMap_cons] at same
          exact absurd (List.append_eq_nil_iff.mp same.symm).1 (written second here)
  | cons first firsts ih =>
      obtain ⟨here, later⟩ := List.forall_mem_cons.mp inside
      cases seconds with
      | nil =>
          rw [List.flatMap_nil, List.flatMap_cons] at same
          exact absurd (List.append_eq_nil_iff.mp same).1 (written first here)
      | cons second seconds =>
          obtain ⟨there, alsoLater⟩ := List.forall_mem_cons.mp also
          rw [List.flatMap_cons, List.flatMap_cons] at same
          obtain ⟨rfl, rest⟩ := delimits first here second there _ _ same
          rw [ih later alsoLater rest]

/-- A value is encoded through something that determines it. -/
theorem SelfDelimiting.comp {images : Set γ} {encodeImage : γ → List β}
    (delimits : SelfDelimiting images encodeImage) {image : α → γ}
    (determines : Set.InjOn image values) (mapsTo : Set.MapsTo image values images) :
    SelfDelimiting values fun value => encodeImage (image value) := by
  intro first here second there rest others same
  obtain ⟨images, behind⟩ := delimits _ (mapsTo here) _ (mapsTo there) rest others same
  exact ⟨determines here there images, behind⟩

/-- A single element followed by a self-delimiting part. -/
theorem SelfDelimiting.cons {parts : Set γ} {encodePart : γ → List β}
    (delimits : SelfDelimiting parts encodePart) :
    SelfDelimiting {value : β × γ | value.2 ∈ parts}
      fun value => value.1 :: encodePart value.2 := by
  rintro ⟨head, part⟩ here ⟨otherHead, otherPart⟩ there rest others same
  obtain ⟨rfl, tails⟩ := List.cons.inj same
  obtain ⟨rfl, behind⟩ := delimits part here otherPart there rest others tails
  exact ⟨rfl, behind⟩

end

/-- A field whose length the eight bytes in front of it can hold. -/
def measurable : Set Bytes := {bytes | bytes.length < 256 ^ 8}

instance (bytes : Bytes) : Decidable (bytes ∈ measurable) :=
  inferInstanceAs (Decidable (bytes.length < 256 ^ 8))

/-- A byte string behind its length. -/
def lengthPrefixed (bytes : Bytes) : Bytes := lengthBytes bytes ++ bytes

theorem selfDelimiting_lengthPrefixed : SelfDelimiting measurable lengthPrefixed := by
  intro first here second there rest others same
  rw [lengthPrefixed, lengthPrefixed, List.append_assoc, List.append_assoc] at same
  obtain ⟨lengths, behind⟩ := List.append_inj same (by simp [lengthBytes])
  have equal : first.length = second.length := by
    have read := congrArg beNat lengths
    rwa [lengthBytes, lengthBytes, beNat_beBytes here, beNat_beBytes there] at read
  exact List.append_inj behind equal

end PrinterSdk.Data
