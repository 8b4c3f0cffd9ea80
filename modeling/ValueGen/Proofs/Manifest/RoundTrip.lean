import Mathlib.Tactic.IntervalCases
import ValueGen.Manifest.Basic

/-!
This module contains that a manifest is read back from its packed form, whatever the order in which
its files are written. Sizes are stored in four bytes at most, so that of a table with more entries
than four bytes can count only some are read.
-/

namespace ValueGen

namespace Packed

theorem span_four : Word.span 4 = 4294967296 := by
  decide

-- Of a number that does not fit the width, the last bytes are written.
theorem readHead_numberHead_append {c : UInt8} {width : Nat} {make : Nat → Head}
    (hc : pending? c.toNat = some (.number width make)) (n : Nat) (rest : Text) :
    readHead (numberHead c width n ++ rest) = some (make (n % Word.span width), rest) := by
  unfold numberHead
  simp only [List.cons_append, readHead, hc, Text.readBigEndian_bigEndian_append]
  rw [Nat.zero_mul, Nat.zero_add]

theorem readHead_numberHead_append_of_lt {c : UInt8} {width : Nat} {make : Nat → Head}
    (hc : pending? c.toNat = some (.number width make)) {n : Nat} (hn : n < Word.span width)
    (rest : Text) : readHead (numberHead c width n ++ rest) = some (make n, rest) := by
  rw [readHead_numberHead_append hc, Nat.mod_eq_of_lt hn]

theorem pending?_text {n : Nat} (h : n < 32) :
    pending? (0xa0 + n).toUInt8.toNat = some (.complete (.text n)) := by
  have hbyte : (0xa0 + n).toUInt8.toNat = 0xa0 + n := by
    simp only [Nat.toUInt8, UInt8.toNat_ofNat']
    omega
  unfold pending?
  rw [hbyte, if_neg (by omega), if_neg (by omega), if_neg (by omega), if_pos (by omega)]
  simp

theorem pending?_map {n : Nat} (h : n < 16) :
    pending? (0x80 + n).toUInt8.toNat = some (.complete (.map n)) := by
  have hbyte : (0x80 + n).toUInt8.toNat = 0x80 + n := by
    simp only [Nat.toUInt8, UInt8.toNat_ofNat']
    omega
  unfold pending?
  rw [hbyte, if_neg (by omega), if_pos (by omega)]
  simp

theorem readHead_text_append {t : Text} (h : t.length < Word.span 4) (rest : Text) :
    readHead (text t ++ rest) = some (.text t.length, t ++ rest) := by
  unfold text
  rw [List.append_assoc]
  by_cases h5 : t.length < 32
  . rw [if_pos h5]
    simp only [List.cons_append, List.nil_append, readHead, pending?_text h5]
  . rw [if_neg h5]
    by_cases h8 : t.length < 256
    . rw [if_pos h8]
      exact readHead_numberHead_append_of_lt rfl h8 _
    . rw [if_neg h8]
      by_cases h16 : t.length < 65536
      . rw [if_pos h16]
        exact readHead_numberHead_append_of_lt rfl h16 _
      . rw [if_neg h16]
        exact readHead_numberHead_append_of_lt rfl h _

theorem readText_text_append {t : Text} (h : t.length < Word.span 4) (rest : Text) :
    readText (text t ++ rest) = some (t, rest) := by
  unfold readText
  rw [readHead_text_append h]
  exact Text.splitBytes?_append t rest

theorem readHead_mapHead_append (n : Nat) (rest : Text) :
    readHead (mapHead n ++ rest) = some (.map (n % Word.span 4), rest) := by
  unfold mapHead
  rw [span_four]
  by_cases h4 : n < 16
  . rw [if_pos h4, Nat.mod_eq_of_lt (by omega)]
    simp only [List.cons_append, List.nil_append, readHead, pending?_map h4]
  . rw [if_neg h4]
    by_cases h16 : n < 65536
    . rw [if_pos h16, Nat.mod_eq_of_lt (by omega)]
      exact readHead_numberHead_append_of_lt rfl h16 _
    . rw [if_neg h16]
      exact readHead_numberHead_append rfl n rest

theorem readMapSize_mapHead_append (n : Nat) (rest : Text) :
    readMapSize (mapHead n ++ rest) = some (some (n % Word.span 4), rest) := by
  unfold readMapSize
  rw [readHead_mapHead_append]
  rfl

/-! Integers. -/

theorem readInteger_of_readHead {t rest : Text} {k : Int}
    (h : readHead t = some (.integer k, rest)) : readInteger t = some (k, rest) := by
  unfold readInteger
  rw [h]

-- Negative integers are written as the number that has the same bytes.
theorem signed_eq {width n : Nat} {k : Int}
    (hsame : (n : Int) = k ∨ (n : Int) = k + Word.span width)
    (hlow : -(Word.span width : Int) ≤ 2 * k) (hhigh : 2 * k < Word.span width) :
    signed width n = .integer k := by
  have hmod : (n : Int) % Word.span width = k % Word.span width := by
    rcases hsame with hsame | hsame
    . rw [hsame]
    . rw [hsame, Int.add_emod_right]
  unfold signed
  rw [Int.bmod_def, hmod]
  by_cases hneg : k < 0
  . have hrest : k % (Word.span width : Int) = k + Word.span width := by
      rw [← Int.add_emod_right, Int.emod_eq_of_lt (by omega) (by omega)]
    rw [hrest, if_neg (by omega), Int.add_sub_cancel]
  . rw [Int.emod_eq_of_lt (by omega) (by omega), if_pos (by omega)]

theorem pending?_ofNat {n : Nat} (h : n < 128) :
    pending? n.toUInt8.toNat = some (.complete (.integer n)) := by
  have hbyte : n.toUInt8.toNat = n := by
    simp only [Nat.toUInt8, UInt8.toNat_ofNat']
    omega
  unfold pending?
  rw [hbyte, if_pos (by omega)]

theorem pending?_negSucc {n : Nat} (h : n < 32) :
    pending? (255 - n).toUInt8.toNat = some (.complete (.integer (.negSucc n))) := by
  interval_cases n
  all_goals rfl

theorem readInteger_ofNat_append {n : Nat} (h : n < 2 ^ 63) (rest : Text) :
    readInteger (integer (.ofNat n) ++ rest) = some (Int.ofNat n, rest) := by
  -- The number is the integer, in a width that has no sign.
  have hnumber {c : UInt8} {width : Nat}
      (hc : pending? c.toNat = some (.number width fun n => .integer n))
      (hn : n < Word.span width) :
      readHead (numberHead c width n ++ rest) = some (.integer (.ofNat n), rest) :=
    readHead_numberHead_append_of_lt hc hn rest
  apply readInteger_of_readHead
  simp only [integer]
  by_cases h7 : n < 128
  . rw [if_pos h7]
    simp only [List.cons_append, List.nil_append, readHead, pending?_ofNat h7]
    rfl
  . rw [if_neg h7]
    by_cases h8 : n < 256
    . rw [if_pos h8]
      exact hnumber rfl h8
    . rw [if_neg h8]
      by_cases h16 : n < 65536
      . rw [if_pos h16]
        exact hnumber rfl h16
      . rw [if_neg h16]
        by_cases h32 : n < 4294967296
        . rw [if_pos h32]
          exact hnumber rfl h32
        . have hspan : Word.span 8 = 18446744073709551616 := rfl
          have hn : n < Word.span 8 := by
            omega
          rw [if_neg h32, readHead_numberHead_append_of_lt rfl hn,
            signed_eq (.inl rfl) (by omega) (by omega)]
          rfl

theorem readInteger_negSucc_append {n : Nat} (h : n < 2 ^ 63) (rest : Text) :
    readInteger (integer (.negSucc n) ++ rest) = some (Int.negSucc n, rest) := by
  -- The number has the bytes of the integer, in a width that has a bit for the sign.
  have hnumber {c : UInt8} {width top : Nat}
      (hc : pending? c.toNat = some (.number width (signed width)))
      (hspan : Word.span width = top + 1) (hn : 2 * n < top) :
      readHead (numberHead c width (top - n) ++ rest) = some (.integer (.negSucc n), rest) := by
    rw [readHead_numberHead_append_of_lt hc (by omega)]
    have hsigned : signed width (top - n) = .integer (.negSucc n) :=
      signed_eq (.inr (by omega)) (by omega) (by omega)
    rw [hsigned]
  apply readInteger_of_readHead
  simp only [integer]
  by_cases h5 : n < 32
  . rw [if_pos h5]
    simp only [List.cons_append, List.nil_append, readHead, pending?_negSucc h5]
  . rw [if_neg h5]
    by_cases h8 : n < 128
    . rw [if_pos h8]
      exact hnumber rfl rfl (by omega)
    . rw [if_neg h8]
      by_cases h16 : n < 32768
      . rw [if_pos h16]
        exact hnumber rfl rfl (by omega)
      . rw [if_neg h16]
        by_cases h32 : n < 2147483648
        . rw [if_pos h32]
          exact hnumber rfl rfl (by omega)
        . rw [if_neg h32]
          exact hnumber rfl rfl (by omega)

theorem readInteger_integer_append {k : Int} (h : Word.holds 64 k = true) (rest : Text) :
    readInteger (integer k ++ rest) = some (k, rest) := by
  have hbounds : -2 ^ 63 ≤ k ∧ k < 2 ^ 63 := by
    have hcount : (Word.count 63 : Int) = 2 ^ 63 := rfl
    rw [Word.holds, Bool.and_eq_true, decide_eq_true_eq, decide_eq_true_eq, Word.least,
      Word.greatest, hcount] at h
    omega
  cases k with
  | ofNat n =>
    have hn : n < 2 ^ 63 := by
      have := hbounds.2
      rw [Int.ofNat_eq_natCast] at this
      omega
    exact readInteger_ofNat_append hn rest
  | negSucc n => exact readInteger_negSucc_append (by omega) rest

end Packed

namespace FileTable

theorem place_of_before {name hash : Text} {es : List (Text × Text)}
    (h : ∀ e ∈ es, Text.before e.1 name = true) : place name hash es = es ++ [(name, hash)] := by
  induction es with
  | nil => rfl
  | cons e es ih =>
    have hbefore := h e List.mem_cons_self
    have hne : e.1 ≠ name := by
      intro heq
      rw [heq, Text.before_irrefl] at hbefore
      cases hbefore
    unfold place
    rw [if_neg hne, if_pos hbefore, ih fun e he => h e (List.mem_cons_of_mem _ he)]
    rfl

-- Entries that come in order are put at the end one after the other.
theorem entries_insertAll {t : FileTable} {es : List (Text × Text)}
    (h : (t.entries ++ es).Pairwise fun a b => Text.before a.1 b.1) :
    (t.insertAll es).entries = t.entries ++ es := by
  induction es generalizing t with
  | nil => simp [insertAll]
  | cons e es ih =>
    have hplace : (t.insert e.1 e.2).entries = t.entries ++ [e] := by
      unfold insert
      dsimp only
      rw [place_of_before]
      intro a ha
      exact (List.pairwise_append.1 h).2.2 a ha e List.mem_cons_self
    have hrest := ih (t := t.insert e.1 e.2) (by rw [hplace]; simpa using h)
    unfold insertAll at hrest ⊢
    rw [List.foldl_cons, hrest, hplace]
    simp

theorem ofList_entries (t : FileTable) : ofList t.entries = t := by
  have h : (ofList t.entries).entries = t.entries := by
    unfold ofList
    rw [entries_insertAll]
    . rfl
    . exact t.ordered
  cases t with
  | mk entries ordered =>
    generalize ofList entries = u at h
    cases u
    cases h
    rfl

theorem find?_of_mem {es : List (Text × Text)}
    (h : es.Pairwise fun a b => Text.before a.1 b.1) {e : Text × Text} (he : e ∈ es) :
    find? e.1 es = some e.2 := by
  induction es with
  | nil => cases he
  | cons first es ih =>
    rw [List.pairwise_cons] at h
    unfold find?
    rcases List.mem_cons.1 he with rfl | he
    . rw [if_pos rfl]
    . have hbefore := h.1 e he
      have hne : first.1 ≠ e.1 := by
        intro heq
        rw [heq, Text.before_irrefl] at hbefore
        cases hbefore
      rw [if_neg hne]
      exact ih h.2 he

theorem get?_of_mem (t : FileTable) {e : Text × Text} (he : e ∈ t.entries) :
    t.get? e.1 = some e.2 :=
  find?_of_mem t.ordered he

theorem names_nodup (t : FileTable) : t.names.Nodup := by
  unfold names List.Nodup
  rw [List.pairwise_map]
  apply t.ordered.imp
  intro a b hbefore heq
  rw [heq, Text.before_irrefl] at hbefore
  cases hbefore

theorem mem_of_find? {name hash : Text} {es : List (Text × Text)}
    (h : find? name es = some hash) : (name, hash) ∈ es := by
  induction es with
  | nil => cases h
  | cons e es ih =>
    unfold find? at h
    split at h
    . next hname =>
      cases h
      rw [← hname]
      exact List.mem_cons_self
    . exact List.mem_cons_of_mem _ (ih h)

-- The entries are in order, so what a table says of each name is all there is to it.
theorem eq_of_get?_eq {t u : FileTable} (h : ∀ name, t.get? name = u.get? name) : t = u := by
  have hnodup (v : FileTable) : v.entries.Nodup := by
    apply v.ordered.imp
    rintro a b hbefore rfl
    rw [Text.before_irrefl] at hbefore
    cases hbefore
  have hmem (e : Text × Text) : e ∈ t.entries ↔ e ∈ u.entries :=
    ⟨fun he => mem_of_find? ((h e.1).symm.trans (t.get?_of_mem he)),
      fun he => mem_of_find? ((h e.1).trans (u.get?_of_mem he))⟩
  have hentries : t.entries = u.entries := by
    refine List.Perm.eq_of_pairwise ?_ t.ordered u.ordered
      ((List.perm_ext_iff_of_nodup (hnodup t) (hnodup u)).2 hmem)
    intro a b _ _ hab hba
    have haa := Text.before_trans hab hba
    rw [Text.before_irrefl] at haa
    cases haa
  cases t
  cases u
  cases hentries
  rfl

end FileTable

namespace Manifest

/--
The manifest fits the packed form: no text of it and no table has a size beyond four bytes.
-/
structure Fits (package : Text) (entries : List (Text × Text)) : Prop where
  package : package.length < Word.span 4
  size : entries.length < Word.span 4
  names : ∀ e ∈ entries, e.1.length < Word.span 4
  hashes : ∀ e ∈ entries, e.2.length < Word.span 4

theorem readEntries_append {n : Nat} {entries : List (Text × Text)} (hn : n ≤ entries.length)
    (hnames : ∀ e ∈ entries, e.1.length < Word.span 4)
    (hhashes : ∀ e ∈ entries, e.2.length < Word.span 4) (files : FileTable) :
    ∃ rest, readEntries n files (entries.flatMap fun e => Packed.text e.1 ++ Packed.text e.2)
      = some (files.insertAll (entries.take n), rest) := by
  induction n generalizing entries files with
  | zero => exact ⟨_, rfl⟩
  | succ n ih =>
    cases entries with
    | nil => cases hn
    | cons e entries =>
      obtain ⟨rest, hrest⟩ := ih (Nat.le_of_succ_le_succ hn)
        (fun e he => hnames e (List.mem_cons_of_mem _ he))
        (fun e he => hhashes e (List.mem_cons_of_mem _ he)) (files.insert e.1 e.2)
      refine ⟨rest, ?_⟩
      simp only [List.flatMap_cons, List.append_assoc, readEntries]
      rw [Packed.readText_text_append (hnames e List.mem_cons_self)]
      dsimp only
      rw [Packed.readText_text_append (hhashes e List.mem_cons_self)]
      exact hrest

-- Of entries that four bytes cannot count, as many are read as their last four bytes say.
theorem readFiles_encodeFiles {entries : List (Text × Text)}
    (hnames : ∀ e ∈ entries, e.1.length < Word.span 4)
    (hhashes : ∀ e ∈ entries, e.2.length < Word.span 4) (m : Manifest) :
    ∃ rest, readFiles m (encodeFiles entries)
      = some ({ m with
          files := m.files.insertAll (entries.take (entries.length % Word.span 4)) }, rest) := by
  obtain ⟨rest, hrest⟩ := readEntries_append (Nat.mod_le _ _) hnames hhashes m.files
  refine ⟨rest, ?_⟩
  unfold readFiles encodeFiles
  rw [Packed.readMapSize_mapHead_append]
  dsimp only
  rw [hrest]
  rfl

-- A named part is read and leaves what follows it.
theorem readParts_text_append {m m' : Manifest} {name part rest : Text}
    (hname : name.length < Word.span 4) (hpart : readPart m name part = some (m', rest)) (n : Nat) :
    readParts (n + 1) m (Packed.text name ++ part) = readParts n m' rest := by
  simp only [readParts, Packed.readText_text_append hname, hpart]

theorem decode?_encodeWith {version : Int} {package : Text} {entries : List (Text × Text)}
    (hversion : Word.holds 64 version = true) (hpackage : package.length < Word.span 4)
    (hnames : ∀ e ∈ entries, e.1.length < Word.span 4)
    (hhashes : ∀ e ∈ entries, e.2.length < Word.span 4) :
    decode? (encodeWith version package (encodeFiles entries))
      = some ⟨version, package, .ofList (entries.take (entries.length % Word.span 4))⟩ := by
  have hversion (rest : Text) : readPart blank "version" (Packed.integer version ++ rest)
      = some (⟨version, [], .empty⟩, rest) := by
    unfold readPart readVersion
    rw [if_pos (by decide), Packed.readInteger_integer_append hversion]
    rfl
  have hpackage (rest : Text) :
      readPart ⟨version, [], .empty⟩ "package" (Packed.text package ++ rest)
        = some (⟨version, package, .empty⟩, rest) := by
    unfold readPart readPackage
    rw [if_neg (by decide), if_pos (by decide), Packed.readText_text_append hpackage]
    rfl
  obtain ⟨rest, hfiles⟩ :
      ∃ rest, readPart ⟨version, package, .empty⟩ "files" (encodeFiles entries)
        = some (⟨version, package, .ofList (entries.take (entries.length % Word.span 4))⟩,
          rest) := by
    unfold readPart
    rw [if_neg (by decide), if_neg (by decide), if_pos (by decide)]
    exact readFiles_encodeFiles hnames hhashes _
  unfold decode? encodeWith
  simp only [List.append_assoc]
  rw [Packed.readHead_mapHead_append]
  have hthree : 3 % Word.span 4 = 3 := rfl
  rw [hthree]
  dsimp only
  rw [readParts_text_append (by decide) (hversion _),
    readParts_text_append (by decide) (hpackage _), readParts_text_append (by decide) hfiles]
  rfl

theorem ofText?_encode {package : Text} {files : FileTable} (h : Fits package files.entries) :
    ofText? (encode ⟨currentVersion, package, files⟩) = some ⟨currentVersion, package, files⟩ := by
  have hversion : Word.holds 64 currentVersion = true := by
    decide
  unfold ofText? encode
  rw [decode?_encodeWith hversion h.package h.names h.hashes, Nat.mod_eq_of_lt h.size,
    List.take_length, FileTable.ofList_entries]
  rfl

end Manifest

end ValueGen
