import ValueGen.Proofs.Source.Accepted

/-!
This module contains that a reader knows where it is. Behind the start of a source every token has a
line and a column, and so have the parts of the source that are read from tokens. If reading stops,
it stops at the place of the last token, unless characters were passed over since.
-/

namespace ValueGen

/--
The line and the column where the token starts are known.
-/
def Token.IsPlaced (t : Token) : Prop := 0 < t.line ∧ 0 < t.column

/--
The reader of the file knows where it is. It may not know the place of the last token, but not half of
it. All that is reported are whole lines.
-/
structure Reader.IsPlacedIn (file : Text) (r : Reader) : Prop where
  file : r.file = file
  cursor : r.cursor.IsPlaced
  pushed : ∀ t, r.pushed = some t → t.IsPlaced
  place : 0 < r.place.1 → 0 < r.place.2
  reports : ∀ line ∈ r.reports, 10 ∈ line

/--
The stop is one at the place of the reader.
-/
def Stop.IsAt (r : Reader) : Stop → Prop
  | .unexpected place _ expected => place = Reader.placeText r.file r.place ∧ 10 ∉ expected
  | .brokenRange | .stuck => True

namespace Parse

variable {α β : Type} {x : Parse α} {f : α → Parse β} {r : Reader} {file : Text}

/--
The action stops early and leaves the reader as `r'`.
-/
def Stops (x : Parse α) (r : Reader) (e : Stop) (r' : Reader) : Prop := x.run.run r = (.error e, r')

theorem stops_of_fst {e : Stop} (h : (x.run.run r).1 = .error e) : x.Stops r e (x.run.run r).2 :=
  Prod.ext h rfl

/--
Where the action ends: with a result and a reader as asked for, or early and at the place of the reader.
-/
def Ends (file : Text) (x : Parse α) (r : Reader) (q : α → Reader → Prop) : Prop :=
  match x.run.run r with
  | (.ok a, r') => q a r'
  | (.error e, r') => r'.IsPlacedIn file ∧ e.IsAt r'

/--
A reader that knows where it is does so behind the action too, and the result is as asked for.
-/
def Places (file : Text) (x : Parse α) (p : α → Prop) : Prop :=
  ∀ r, r.IsPlacedIn file → Ends file x r fun a r' => p a ∧ r'.IsPlacedIn file

theorem ends_bind_iff {q : β → Reader → Prop} :
    Ends file (x >>= f) r q ↔ Ends file x r fun a r' => Ends file (f a) r' q := by
  unfold Ends
  rw [run_bind]
  rcases x.run.run r with ⟨_ | _, _⟩
  all_goals rfl

theorem ends_get_bind_iff {g : Reader → Parse β} {q : β → Reader → Prop} :
    Ends file (get >>= g) r q ↔ Ends file (g r) r q := Iff.rfl

theorem ends_modifyGet_bind_iff {g : Reader → α × Reader} {q : β → Reader → Prop} :
    Ends file (modifyGet g >>= f) r q ↔ Ends file (f (g r).1) (g r).2 q := Iff.rfl

theorem ends_modify_bind_iff {g : Reader → Reader} {f : PUnit → Parse β} {q : β → Reader → Prop} :
    Ends file (modify g >>= f) r q ↔ Ends file (f ⟨⟩) (g r) q := Iff.rfl

theorem Ends.of_yields {q : α → Reader → Prop} {a : α} {r' : Reader} (h : Ends file x r q)
    (hx : x.Yields r a r') : q a r' := by
  unfold Ends at h
  rw [hx] at h
  exact h

theorem Ends.of_stops {q : α → Reader → Prop} {e : Stop} {r' : Reader} (h : Ends file x r q)
    (hx : x.Stops r e r') : r'.IsPlacedIn file ∧ e.IsAt r' := by
  unfold Ends at h
  rw [hx] at h
  exact h

theorem Ends.mono {q q' : α → Reader → Prop} (h : Ends file x r q) (hq : ∀ a r', q a r' → q' a r') :
    Ends file x r q' := by
  unfold Ends at h ⊢
  rcases hrun : x.run.run r with ⟨_ | a, r'⟩
  . rw [hrun] at h
    exact h
  . rw [hrun] at h
    exact hq a r' h

namespace Places

variable {p : α → Prop} {q : β → Prop}

theorem pure {a : α} (h : p a) : Places file (pure a) p := fun _ hr => ⟨h, hr⟩

theorem bind (hx : Places file x p) (hf : ∀ a, p a → Places file (f a) q) :
    Places file (x >>= f) q := by
  intro r hr
  rw [ends_bind_iff]
  exact (hx r hr).mono fun a r' h => hf a h.1 r' h.2

theorem seq (hx : Places file x p) (hf : ∀ a, Places file (f a) q) : Places file (x >>= f) q :=
  hx.bind fun a _ => hf a

theorem map {g : α → β} (hx : Places file x p) (h : ∀ a, p a → q (g a)) :
    Places file (x >>= fun a => Pure.pure (g a)) q :=
  hx.bind fun a ha => pure (h a ha)

theorem ite {c : Prop} [Decidable c] {y : Parse α} (hx : Places file x p) (hy : Places file y p) :
    Places file (if c then x else y) p := by
  split
  . exact hx
  . exact hy

theorem get_bind {g : Reader → Parse β} (h : ∀ r, Places file (g r) q) : Places file (get >>= g) q :=
  fun r hr => h r r hr

theorem modifyCare (care : Reader → Care) :
    Places file (modify fun r => { r with care := care r }) fun _ => True :=
  fun _ hr => ⟨trivial, hr.file, hr.cursor, hr.pushed, hr.place, hr.reports⟩

theorem unexpected (found : Text) {expected : Text} (h : 10 ∉ expected) :
    Places file (unexpected found expected : Parse α) p := fun _ hr => ⟨hr, rfl, h⟩

theorem stuck : Places file (throw .stuck : Parse α) p := fun _ hr => ⟨hr, trivial⟩

theorem brokenRange : Places file (throw .brokenRange : Parse α) p := fun _ hr => ⟨hr, trivial⟩

end Places

end Parse

/-! Tokens. -/

namespace Reader.IsPlacedIn

variable {r : Reader} {file : Text}

-- The faults that a cursor found are reported on lines of their own.
theorem collect (h : r.IsPlacedIn file) (place : Nat × Nat) : (r.collect place).IsPlacedIn file where
  file := h.file
  cursor := h.cursor
  pushed := h.pushed
  place := h.place
  reports := by
    intro line hline
    obtain hline | hline := List.mem_append.1 hline
    . exact h.reports line hline
    . obtain ⟨fault, -, rfl⟩ := List.mem_map.1 hline
      unfold reportLine
      exact List.mem_append_right _ List.mem_cons_self

theorem move (h : r.IsPlacedIn file) {cursor : Cursor} (htakes : r.cursor.mark.Takes cursor)
    {place : Nat × Nat} (hplace : 0 < place.1 → 0 < place.2) :
    IsPlacedIn file { r with cursor := cursor, place := place } :=
  ⟨h.file, htakes.place h.cursor, h.pushed, hplace, h.reports⟩

theorem skipSpace (h : r.IsPlacedIn file) : r.skipSpace.IsPlacedIn file :=
  (h.move ((Cursor.isLocalMove_takeWhile Cursor.isSpace).takes _) h.place).collect _

theorem scanToken (h : r.IsPlacedIn file) :
    r.scanToken.2.IsPlacedIn file ∧ 0 < r.scanToken.2.place.1 :=
  ⟨(h.move (Cursor.isLocalMove_takeToken.takes _) fun _ => h.cursor.2).collect _, h.cursor.1⟩

theorem scan (h : r.IsPlacedIn file) : r.scan.2.IsPlacedIn file ∧ 0 < r.scan.2.place.1 :=
  h.skipSpace.scanToken

end Reader.IsPlacedIn

namespace Parse

variable {file : Text} {t : Token} {expected : Text}

theorem ends_tokenHere {r : Reader} (h : r.IsPlacedIn file) (hplace : 0 < r.place.1) (text : Text) :
    Ends file (tokenHere text) r fun t r' => t.IsPlaced ∧ r'.IsPlacedIn file :=
  ⟨⟨hplace, h.place hplace⟩, h⟩

theorem ends_untilQuote {n : Nat} {done : Text} {r : Reader} (h : r.IsPlacedIn file)
    (hplace : 0 < r.place.1) :
    Ends file (untilQuote n done) r fun _ r' => r'.IsPlacedIn file ∧ 0 < r'.place.1 := by
  induction n generalizing done r with
  | zero => exact ⟨h, trivial⟩
  | succ n ih =>
    rw [untilQuote, ends_modifyGet_bind_iff]
    split
    . exact h.scan
    . split
      . exact h.scan
      . exact ih h.scan.1 h.scan.2

theorem places_next : Places file next Token.IsPlaced := by
  intro r hr
  rw [next, ends_get_bind_iff]
  split
  . next t hpushed =>
    refine ⟨hr.pushed t hpushed, hr.file, hr.cursor, ?_, hr.place, hr.reports⟩
    rintro _ ⟨⟩
  . rw [ends_modifyGet_bind_iff]
    obtain ⟨hscan, hplace⟩ := hr.scan
    split
    . rw [ends_modify_bind_iff, ends_bind_iff]
      have hopen : Reader.IsPlacedIn file { r.scan.2 with care := .none } :=
        ⟨hscan.file, hscan.cursor, hscan.pushed, hscan.place, hscan.reports⟩
      apply (ends_untilQuote hopen hplace).mono
      rintro inner q ⟨hq, hknown⟩
      rw [ends_modify_bind_iff]
      have hclosed : Reader.IsPlacedIn file { q with care := r.care } :=
        ⟨hq.file, hq.cursor, hq.pushed, hq.place, hq.reports⟩
      cases inner
      all_goals exact ends_tokenHere hclosed hknown _
    . exact ends_tokenHere hscan hplace _

theorem places_putBack (h : t.IsPlaced) : Places file (putBack t) fun _ => True := by
  intro r hr
  refine ⟨trivial, hr.file, hr.cursor, ?_, hr.place, hr.reports⟩
  rintro _ ⟨⟩
  exact h

theorem places_dotAhead : Places file dotAhead fun _ => True := by
  intro r hr
  rw [dotAhead, ends_get_bind_iff]
  simp only
  split
  . exact ⟨trivial, (hr.move ((Cursor.isLocalMove_takeWhile _).takes _) id).collect _⟩
  . exact ⟨trivial, hr⟩

theorem places_expect (text : Text) (h : 10 ∉ expected) :
    Places file (expect text expected) fun _ => True := by
  refine .seq places_next fun t => ?_
  split
  . exact .unexpected _ h
  . exact .pure trivial

theorem places_name (h : 10 ∉ expected) : Places file (name expected) fun _ => True := by
  refine .seq places_next fun t => ?_
  split
  . exact .pure trivial
  . exact .unexpected _ h

theorem places_comments : Places file comments fun _ => True := by
  apply Places.get_bind
  intro r
  induction r.budget with
  | zero => exact .stuck
  | succ n ih =>
    apply Places.bind places_next
    intro t ht
    split
    . exact ih
    . exact places_putBack ht

/-! Names and types. -/

theorem places_dottedRest {n : Nat} {done : Text} :
    Places file (dottedRest n done) fun _ => True := by
  induction n generalizing done with
  | zero => exact .stuck
  | succ n ih =>
    refine .seq places_dotAhead fun dot => ?_
    split
    . refine .seq places_next fun _ => ?_
      apply Places.bind places_next
      intro t ht
      split
      . exact ih
      . exact .map (places_putBack ht) fun _ _ => trivial
    . exact .pure trivial

theorem places_dotted {reserved : Bool} : Places file (dotted reserved) Token.IsPlaced := by
  apply Places.bind places_next
  intro t ht
  split
  . apply Places.get_bind
    intro r
    refine .seq places_dottedRest fun _ => ?_
    exact .pure ht
  . exact .pure ht

theorem places_identifier : Places file identifier Token.IsPlaced := by
  apply Places.bind places_dotted
  intro t ht
  split
  . exact .map places_dotted fun _ ht => ht
  . exact .pure ht

theorem places_identifierName (h : 10 ∉ expected) :
    Places file (identifierName expected) fun _ => True := by
  refine .seq places_identifier fun t => ?_
  split
  . exact .pure trivial
  . exact .unexpected _ h

theorem places_typeRest {n : Nat} (ht : t.IsPlaced) :
    Places file (typeRest n t) Token.IsPlaced := by
  induction n generalizing t with
  | zero => exact .stuck
  | succ n ih =>
    refine .seq places_dotAhead fun dot => ?_
    split
    . refine .seq places_next fun _ => ?_
      refine .seq places_next fun u => ?_
      exact ih ht
    . exact .pure ht

theorem places_typeName : Places file typeName Token.IsPlaced := by
  have hrest (t : Token) (ht : t.IsPlaced) :
      Places file (get >>= fun r => typeRest r.budget t) Token.IsPlaced :=
    .get_bind fun _ => places_typeRest ht
  apply Places.bind places_next
  intro t ht
  simp only
  split
  . refine .seq places_next fun u => ?_
    exact .bind (.pure (p := Token.IsPlaced) ht) hrest
  . exact .bind (.pure (p := Token.IsPlaced) ht) hrest

end Parse

end ValueGen
