import ValueGen.Proofs.Manifest.RoundTrip

/-!
This module contains that the texts of a manifest that could be read have sizes of four bytes at
most, so that what it says of a file can be written again.
-/

namespace ValueGen

namespace Text

theorem lt_of_readBigEndian {high width n : Nat} {t rest : Text}
    (h : readBigEndian high width t = some (n, rest)) : n < (high + 1) * Word.span width := by
  induction width generalizing high t with
  | zero =>
    cases h
    rw [Word.span_zero]
    omega
  | succ width ih =>
    cases t with
    | nil => cases h
    | cons b t =>
      unfold readBigEndian at h
      have hbyte := b.toNat_lt
      calc
        n < (256 * high + b.toNat + 1) * Word.span width := ih h
        _ ≤ (256 * (high + 1)) * Word.span width := Nat.mul_le_mul_right _ (by omega)
        _ = (high + 1) * Word.span (width + 1) := by
          rw [Word.span_succ, Nat.mul_comm 256, Nat.mul_assoc, Nat.mul_comm 256]

theorem length_of_splitBytes? {n : Nat} {t first rest : Text}
    (h : splitBytes? n t = some (first, rest)) : first.length = n := by
  unfold splitBytes? at h
  split at h
  . next hle =>
    cases h
    rw [List.length_take]
    omega
  . cases h

end Text

namespace Packed

/--
If the head is that of a text, its size has four bytes at most.
-/
def Head.IsShort (h : Head) : Prop := ∀ size, h = .text size → size < Word.span 4

/--
Whatever is read after the first byte, the head is that of a short text, or not that of a text.
-/
def Pending.IsShort : Pending → Prop
  | .complete h => h.IsShort
  | .number width make => ∀ n < Word.span width, (make n).IsShort
  | .typed _ _ => True

theorem isShort_of_pending? {c : Nat} {p : Pending} (h : pending? c = some p) : p.IsShort := by
  have hone : Word.span 1 = 256 := rfl
  have htwo : Word.span 2 = 65536 := rfl
  unfold pending? at h
  repeat' split at h
  all_goals cases h
  all_goals simp [Pending.IsShort, Head.IsShort, signed, span_four, hone, htwo]
  all_goals omega

theorem isShort_of_readHead {t rest : Text} {h : Head} (hread : readHead t = some (h, rest)) :
    h.IsShort := by
  cases t with
  | nil => cases hread
  | cons c t =>
    simp only [readHead] at hread
    split at hread
    . cases hread
    . next hpending =>
      cases hread
      exact isShort_of_pending? hpending
    . next hpending =>
      split at hread
      . next n _ hnumber =>
        cases hread
        have hn := Text.lt_of_readBigEndian hnumber
        rw [Nat.zero_add, Nat.one_mul] at hn
        exact isShort_of_pending? hpending n hn
      . cases hread
    . split at hread
      . cases hread
        simp [Head.IsShort]
      . cases hread

theorem length_of_readText {t first rest : Text} (h : readText t = some (first, rest)) :
    first.length < Word.span 4 := by
  unfold readText at h
  split at h
  . cases h
    decide
  . next size _ hhead =>
    rw [Text.length_of_splitBytes? h]
    exact isShort_of_readHead hhead size rfl
  . cases h

end Packed

/--
The names and the digests of the table have sizes of four bytes at most.
-/
def FileTable.IsShort (t : FileTable) : Prop :=
  ∀ name hash, t.get? name = some hash → name.length < Word.span 4 ∧ hash.length < Word.span 4

theorem FileTable.isShort_empty : FileTable.empty.IsShort := by
  intro name hash hget
  cases hget

namespace Manifest

theorem isShort_of_readEntries {n : Nat} {files files' : FileTable} {t rest : Text}
    (hfiles : files.IsShort) (h : readEntries n files t = some (files', rest)) :
    files'.IsShort := by
  induction n generalizing files t with
  | zero =>
    cases h
    exact hfiles
  | succ n ih =>
    unfold readEntries at h
    split at h
    . cases h
    . next name _ hname =>
      split at h
      . cases h
      . next hash _ hhash =>
        refine ih ?_ h
        intro other found hget
        rw [FileTable.get?_insert] at hget
        split at hget
        . next heq =>
          cases hget
          rw [heq]
          exact ⟨Packed.length_of_readText hname, Packed.length_of_readText hhash⟩
        . exact hfiles other found hget

theorem files_of_readVersion {m m' : Manifest} {t rest : Text}
    (h : readVersion m t = some (m', rest)) : m'.files = m.files := by
  unfold readVersion at h
  rw [Option.map_eq_some_iff] at h
  obtain ⟨_, -, heq⟩ := h
  cases heq
  rfl

theorem files_of_readPackage {m m' : Manifest} {t rest : Text}
    (h : readPackage m t = some (m', rest)) : m'.files = m.files := by
  unfold readPackage at h
  rw [Option.map_eq_some_iff] at h
  obtain ⟨_, -, heq⟩ := h
  cases heq
  rfl

theorem isShort_of_readFiles {m m' : Manifest} {t rest : Text} (hm : m.files.IsShort)
    (h : readFiles m t = some (m', rest)) : m'.files.IsShort := by
  unfold readFiles at h
  split at h
  . cases h
  . cases h
    exact FileTable.isShort_empty
  . rw [Option.map_eq_some_iff] at h
    obtain ⟨⟨files, t⟩, hentries, heq⟩ := h
    cases heq
    exact isShort_of_readEntries hm hentries

theorem isShort_of_readPart {m m' : Manifest} {name t rest : Text} (hm : m.files.IsShort)
    (h : readPart m name t = some (m', rest)) : m'.files.IsShort := by
  unfold readPart at h
  split at h
  . rw [files_of_readVersion h]
    exact hm
  . split at h
    . rw [files_of_readPackage h]
      exact hm
    . split at h
      . exact isShort_of_readFiles hm h
      . rw [Option.map_eq_some_iff] at h
        obtain ⟨_, -, heq⟩ := h
        cases heq
        exact hm

theorem isShort_of_readParts {n : Nat} {m m' : Manifest} {t : Text} (hm : m.files.IsShort)
    (h : readParts n m t = some m') : m'.files.IsShort := by
  induction n generalizing m t with
  | zero =>
    cases h
    exact hm
  | succ n ih =>
    unfold readParts at h
    split at h
    . cases h
    . split at h
      . cases h
      . next hpart => exact ih (isShort_of_readPart hm hpart) h

theorem isShort_of_readInOrder {m m' : Manifest} {t : Text} (hm : m.files.IsShort)
    (h : readInOrder m t = some m') : m'.files.IsShort := by
  unfold readInOrder at h
  simp only [Option.bind_eq_bind, Option.bind_eq_some_iff, Option.pure_def] at h
  obtain ⟨⟨m₁, t₁⟩, hversion, ⟨m₂, t₂⟩, hpackage, ⟨m₃, t₃⟩, hfiles, heq⟩ := h
  cases heq
  apply isShort_of_readFiles _ hfiles
  rw [files_of_readPackage hpackage, files_of_readVersion hversion]
  exact hm

-- A manifest is read from any text, also one that no run has written.
theorem isShort_of_ofText? {m : Manifest} {t : Text} (h : ofText? t = some m) :
    m.files.IsShort := by
  have hdecode {m : Manifest} (h : decode? t = some m) : m.files.IsShort := by
    unfold decode? at h
    split at h
    . cases h
      exact FileTable.isShort_empty
    . exact isShort_of_readParts FileTable.isShort_empty h
    . cases h
      exact FileTable.isShort_empty
    . exact isShort_of_readInOrder FileTable.isShort_empty h
    . cases h
  unfold ofText? at h
  rw [Option.map_eq_some_iff] at h
  obtain ⟨read, hread, rfl⟩ := h
  split
  . exact hdecode hread
  . exact FileTable.isShort_empty

end Manifest

end ValueGen
