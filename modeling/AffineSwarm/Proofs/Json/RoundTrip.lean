import AffineSwarm.Json.Printable
import AffineSwarm.Proofs.Json.Number
import AffineSwarm.Proofs.Json.Quoted

/-!
# Written values read back

Every value that has a text is what the strict reader makes of the text (`parse?_of_text?`), so
two values never have the same text (`text?_inj`). The reader goes through a text in the order in
which it was written: it finds the end of every value, because a comma or a closing bracket goes
on with no number, and it takes no bracket for the end of a list too early, because no value
starts with one (`chars_eq_cons`). The induction follows the readers of values, items and members,
each of which gives the others less fuel than it got (`readsBack`); the length of the text is as
much as they need.
-/

namespace AffineSwarm.Json

variable {fuel : Nat} {cs rest after : List Char}

-- ---------------------------------------------------------------------------
-- Parts of a text
-- ---------------------------------------------------------------------------

theorem skipBlanks_cons {c : Char} (hc : isBlank c = false) (cs : List Char) :
    skipBlanks (c :: cs) = c :: cs := by
  rw [skipBlanks, List.dropWhile_cons, hc]
  rfl

/-- A string is read back after its opening quote. -/
theorem scanString_encode (s : String) (rest : List Char) :
    scanString (Quoted.encode s.toList ++ '"' :: rest) = some (some s, rest) := by
  obtain ⟨us, hscan, hresolve⟩ := Quoted.scan_encode s.toList rest
  simp only [scanString, hscan, Option.map_some, hresolve, String.ofList_toList]

theorem stringChars_append (s : String) (rest : List Char) :
    stringChars (some s) ++ rest = '"' :: (Quoted.encode s.toList ++ '"' :: rest) := by
  rw [stringChars, Option.getD_some, List.cons_append, List.cons_append, List.append_assoc]
  rfl

/-- A number starts with none of the characters that other parts of a text start with. -/
theorem ne_of_startsNumber {c d : Char} (hc : c = '-' ∨ Ascii.isDigit c = true) (hminus : d ≠ '-')
    (hdigit : Ascii.isDigit d = false) : c ≠ d := by
  rintro rfl
  cases hc with
  | inl h => exact hminus h
  | inr h => exact absurd h (by rw [hdigit]; decide)

theorem scanValue_number {c : Char} (hc : c = '-' ∨ Ascii.isDigit c = true) :
    scanValue (fuel + 1) (c :: cs) =
      (scanNumber (c :: cs)).map fun (text, rest) => (.number text, rest) := by
  rw [scanValue]
  all_goals
    rintro _ h
    exact ne_of_startsNumber hc (by decide) (by decide) (List.cons.inj h).1

theorem scanValue_string (s : String) :
    scanValue (fuel + 1) (stringChars (some s) ++ rest) = some (.string (some s), rest) := by
  rw [stringChars_append, scanValue, scanString_encode, Option.map_some]

theorem scanValue_items {c : Char} (hblank : isBlank c = false) (hclose : c ≠ ']') :
    scanValue (fuel + 1) ('[' :: c :: cs) =
      (scanItems fuel (c :: cs)).map fun (items, rest) => (.array items, rest) := by
  rw [scanValue, skipBlanks_cons hblank]
  split
  · next h => exact absurd (List.cons.inj h).1 hclose
  · rfl

theorem scanValue_members :
    scanValue (fuel + 1) ('{' :: '"' :: cs) =
      (scanMembers fuel ('"' :: cs)).map fun (members, rest) => (.object members, rest) := by
  rw [scanValue, skipBlanks_cons (by decide)]
  rfl

theorem scanItems_last {item : Json} (h : scanValue fuel cs = some (item, ']' :: rest)) :
    scanItems (fuel + 1) cs = some ([item], rest) := by
  rw [scanItems, h]
  rfl

theorem scanItems_more {item : Json} {items : List Json} {c : Char} (hblank : isBlank c = false)
    (hitem : scanValue fuel cs = some (item, ',' :: c :: rest))
    (hitems : scanItems fuel (c :: rest) = some (items, after)) :
    scanItems (fuel + 1) cs = some (item :: items, after) := by
  have hskip : skipBlanks (',' :: c :: rest) = ',' :: c :: rest := rfl
  simp only [scanItems, hitem, Option.bind_eq_bind, Option.bind_some, hskip,
    skipBlanks_cons hblank, hitems]
  rfl

/-- A member with its name. -/
theorem scanMembers_last (name : String) {value : Json} {c : Char} (hblank : isBlank c = false)
    (hvalue : scanValue fuel (c :: cs) = some (value, '}' :: rest)) :
    scanMembers (fuel + 1) (stringChars (some name) ++ ':' :: c :: cs) =
      some ([(some name, value)], rest) := by
  have hcolon : skipBlanks (':' :: c :: cs) = ':' :: c :: cs := rfl
  have hclose : skipBlanks ('}' :: rest) = '}' :: rest := rfl
  rw [stringChars_append]
  simp only [scanMembers, scanString_encode, Option.bind_eq_bind, Option.bind_some, hcolon,
    skipBlanks_cons hblank, hvalue, hclose]
  rfl

theorem scanMembers_more (name : String) {value : Json} {c : Char} (hblank : isBlank c = false)
    {members : List (Option String × Json)}
    (hvalue : scanValue fuel (c :: cs) = some (value, ',' :: '"' :: rest))
    (hmembers : scanMembers fuel ('"' :: rest) = some (members, after)) :
    scanMembers (fuel + 1) (stringChars (some name) ++ ':' :: c :: cs) =
      some ((some name, value) :: members, after) := by
  have hcolon : skipBlanks (':' :: c :: cs) = ':' :: c :: cs := rfl
  have hcomma : skipBlanks (',' :: '"' :: rest) = ',' :: '"' :: rest := rfl
  have hquote : skipBlanks ('"' :: rest) = '"' :: rest := rfl
  rw [stringChars_append]
  simp only [scanMembers, scanString_encode, Option.bind_eq_bind, Option.bind_some, hcolon,
    skipBlanks_cons hblank, hvalue, hcomma, hquote, hmembers]
  rfl

-- ---------------------------------------------------------------------------
-- Values
-- ---------------------------------------------------------------------------

/-- A value does not start with a blank or a closing bracket. -/
theorem chars_eq_cons {j : Json} (h : j.isPrintable = true) :
    ∃ c cs, j.chars = c :: cs ∧ isBlank c = false ∧ c ≠ ']' := by
  cases j with
  | null => exact ⟨_, _, rfl, by decide, by decide⟩
  | bool b =>
    cases b
    · exact ⟨_, _, rfl, by decide, by decide⟩
    · exact ⟨_, _, rfl, by decide, by decide⟩
  | number text =>
    rw [isPrintable, beq_iff_eq] at h
    cases text with
    | nil => cases h
    | cons c cs =>
      have hc : ∀ d, d ≠ '-' → Ascii.isDigit d = false → c ≠ d := fun d =>
        ne_of_startsNumber (head_of_scanNumber h)
      refine ⟨c, cs, rfl, ?_, hc _ (by decide) (by decide)⟩
      rw [isBlank, decide_eq_false (hc ' ' (by decide) (by decide)),
        decide_eq_false (hc '\n' (by decide) (by decide)),
        decide_eq_false (hc '\t' (by decide) (by decide)),
        decide_eq_false (hc '\r' (by decide) (by decide))]
      rfl
  | string content => exact ⟨_, _, rfl, by decide, by decide⟩
  | array items => exact ⟨_, _, rfl, by decide, by decide⟩
  | object members => exact ⟨_, _, rfl, by decide, by decide⟩

theorem itemsChars_cons_cons (item next : Json) (items : List Json) :
    itemsChars (item :: next :: items) = item.chars ++ ',' :: itemsChars (next :: items) := by
  rw [itemsChars]
  exact List.cons_ne_nil next items

theorem membersChars_cons_cons (name : Option String) (value : Json) (next : Option String × Json)
    (members : List (Option String × Json)) :
    membersChars ((name, value) :: next :: members) =
      stringChars name ++ ':' :: value.chars ++ ',' :: membersChars (next :: members) := by
  rw [membersChars]
  exact List.cons_ne_nil next members

/-- Members start with the quote of the first name. -/
theorem membersChars_eq_cons (m : Option String × Json) (members : List (Option String × Json)) :
    ∃ cs, membersChars (m :: members) = '"' :: cs := by
  obtain ⟨name, value⟩ := m
  cases members with
  | nil => exact ⟨_, rfl⟩
  | cons next members => exact ⟨_, membersChars_cons_cons name value next members⟩

theorem itemsChars_eq_cons {item : Json} {items : List Json}
    (h : itemsPrintable (item :: items) = true) :
    ∃ c cs, itemsChars (item :: items) = c :: cs ∧ isBlank c = false ∧ c ≠ ']' := by
  rw [itemsPrintable, Bool.and_eq_true] at h
  obtain ⟨c, cs, hchars, hc⟩ := chars_eq_cons h.1
  cases items with
  | nil => exact ⟨c, cs, hchars, hc⟩
  | cons next items =>
    refine ⟨c, cs ++ ',' :: itemsChars (next :: items), ?_, hc⟩
    rw [itemsChars_cons_cons, hchars, List.cons_append]

-- ---------------------------------------------------------------------------
-- Reading back
-- ---------------------------------------------------------------------------

/-- With so much fuel, what is written is read back if its text is not longer than that. -/
structure ReadsBack (fuel : Nat) : Prop where
  value : ∀ (j : Json) (rest : List Char), j.isPrintable = true → j.chars.length ≤ fuel →
    EndsNumber rest → scanValue fuel (j.chars ++ rest) = some (j, rest)
  items : ∀ (item : Json) (items : List Json) (rest : List Char),
    itemsPrintable (item :: items) = true → (itemsChars (item :: items)).length < fuel →
    scanItems fuel (itemsChars (item :: items) ++ ']' :: rest) = some (item :: items, rest)
  members : ∀ (m : Option String × Json) (members : List (Option String × Json))
    (rest : List Char), membersPrintable (m :: members) = true →
    (membersChars (m :: members)).length < fuel →
    scanMembers fuel (membersChars (m :: members) ++ '}' :: rest) = some (m :: members, rest)

theorem ReadsBack.value_succ (reads : ReadsBack fuel) (j : Json) (rest : List Char)
    (h : j.isPrintable = true) (hfuel : j.chars.length ≤ fuel + 1) (hrest : EndsNumber rest) :
    scanValue (fuel + 1) (j.chars ++ rest) = some (j, rest) := by
  match j, h with
  | .null, _ => rfl
  | .bool true, _ => rfl
  | .bool false, _ => rfl
  | .number [], h => cases h
  | .number (c :: cs), h =>
    rw [isPrintable, beq_iff_eq] at h
    rw [chars, List.cons_append, scanValue_number (head_of_scanNumber h), ← List.cons_append,
      scanNumber_append hrest h]
    rfl
  | .string (some s), _ => exact scanValue_string s
  | .array [], _ => rfl
  | .array (item :: items), h =>
    rw [isPrintable] at h
    simp only [chars, List.length_append, List.length_cons, List.length_nil] at hfuel
    have hitems := reads.items item items rest h (by omega)
    -- the reader looks for a closing bracket first, and must find an item
    obtain ⟨c, cs, hhead, hblank, hclose⟩ := itemsChars_eq_cons h
    rw [chars, List.cons_append, List.cons_append, List.append_assoc, List.singleton_append]
    rw [hhead, List.cons_append] at hitems ⊢
    rw [scanValue_items hblank hclose, hitems, Option.map_some]
  | .object [], _ => rfl
  | .object (m :: members), h =>
    rw [isPrintable] at h
    simp only [chars, List.length_append, List.length_cons, List.length_nil] at hfuel
    have hmembers := reads.members m members rest h (by omega)
    obtain ⟨cs, hhead⟩ := membersChars_eq_cons m members
    rw [chars, List.cons_append, List.cons_append, List.append_assoc, List.singleton_append]
    rw [hhead, List.cons_append] at hmembers ⊢
    rw [scanValue_members, hmembers, Option.map_some]

theorem ReadsBack.items_succ (reads : ReadsBack fuel) (item : Json) (items : List Json)
    (rest : List Char) (h : itemsPrintable (item :: items) = true)
    (hfuel : (itemsChars (item :: items)).length < fuel + 1) :
    scanItems (fuel + 1) (itemsChars (item :: items) ++ ']' :: rest) =
      some (item :: items, rest) := by
  rw [itemsPrintable, Bool.and_eq_true] at h
  obtain ⟨hitem, hitems⟩ := h
  cases items with
  | nil =>
    rw [itemsChars] at hfuel ⊢
    exact scanItems_last
      (reads.value item _ hitem (by omega) (endsNumber_cons (by decide) rest))
  | cons next items =>
    rw [itemsChars_cons_cons, List.length_append, List.length_cons] at hfuel
    -- a comma comes after the item, so it ends there even if it is a number
    have hvalue := reads.value item (',' :: (itemsChars (next :: items) ++ ']' :: rest)) hitem
      (by omega) (endsNumber_cons (by decide) _)
    have hnext := reads.items next items rest hitems (by omega)
    obtain ⟨c, cs, hhead, hblank, -⟩ := itemsChars_eq_cons hitems
    rw [itemsChars_cons_cons, List.append_assoc, List.cons_append]
    rw [hhead] at hvalue hnext ⊢
    exact scanItems_more hblank hvalue hnext

theorem ReadsBack.members_succ (reads : ReadsBack fuel) (m : Option String × Json)
    (members : List (Option String × Json)) (rest : List Char)
    (h : membersPrintable (m :: members) = true)
    (hfuel : (membersChars (m :: members)).length < fuel + 1) :
    scanMembers (fuel + 1) (membersChars (m :: members) ++ '}' :: rest) =
      some (m :: members, rest) := by
  obtain ⟨name, value⟩ := m
  simp only [membersPrintable, Bool.and_eq_true] at h
  obtain ⟨⟨hname, hvalue⟩, hmembers⟩ := h
  obtain ⟨name, rfl⟩ := Option.isSome_iff_exists.mp hname
  obtain ⟨c, cs, hhead, hblank, -⟩ := chars_eq_cons hvalue
  cases members with
  | nil =>
    simp only [membersChars, List.length_append, List.length_cons] at hfuel
    have hread := reads.value value ('}' :: rest) hvalue (by omega)
      (endsNumber_cons (by decide) rest)
    rw [membersChars, List.append_assoc, List.cons_append]
    rw [hhead] at hread ⊢
    exact scanMembers_last name hblank hread
  | cons next members =>
    simp only [membersChars_cons_cons, List.length_append, List.length_cons] at hfuel
    have hread := reads.value value (',' :: (membersChars (next :: members) ++ '}' :: rest)) hvalue
      (by omega) (endsNumber_cons (by decide) _)
    have hnext := reads.members next members rest hmembers (by omega)
    obtain ⟨ds, hquote⟩ := membersChars_eq_cons next members
    rw [membersChars_cons_cons, List.append_assoc, List.append_assoc, List.cons_append,
      List.cons_append]
    rw [hquote] at hread hnext ⊢
    rw [hhead] at hread ⊢
    exact scanMembers_more name hblank hread hnext

/-- By induction on the fuel, of which each reader uses one for itself. -/
theorem readsBack (fuel : Nat) : ReadsBack fuel := by
  induction fuel with
  | zero =>
    refine ⟨?_, fun _ _ _ _ hfuel => absurd hfuel (Nat.not_lt_zero _),
      fun _ _ _ _ hfuel => absurd hfuel (Nat.not_lt_zero _)⟩
    intro j rest h hfuel
    obtain ⟨c, cs, hchars, -⟩ := chars_eq_cons h
    rw [hchars] at hfuel
    cases hfuel
  | succ fuel ih => exact ⟨ih.value_succ, ih.items_succ, ih.members_succ⟩

-- ---------------------------------------------------------------------------
-- Texts
-- ---------------------------------------------------------------------------

theorem parse?_text {j : Json} (h : j.isPrintable = true) : parse? j.text = some j := by
  have hread := (readsBack (2 * j.chars.length + 2)).value j [] h (by omega) endsNumber_nil
  obtain ⟨c, cs, hchars, hblank, -⟩ := chars_eq_cons h
  have hskip : skipBlanks j.chars = j.chars := by rw [hchars, skipBlanks_cons hblank]
  rw [List.append_nil] at hread
  rw [parse?, text, String.toList_ofList, ofChars?, hskip, hread]
  rfl

/-- A value that has a text is read back from it. -/
theorem parse?_of_text? {j : Json} {t : String} (h : j.text? = some t) : parse? t = some j := by
  rw [text?] at h
  split at h
  · next hprint =>
    cases h
    exact parse?_text hprint
  · cases h

/-- Different values have different texts. -/
theorem text?_inj {j k : Json} {t : String} (hj : j.text? = some t) (hk : k.text? = some t) :
    j = k := by
  have hparse := parse?_of_text? hj
  rw [parse?_of_text? hk] at hparse
  exact (Option.some.inj hparse).symm

end AffineSwarm.Json
