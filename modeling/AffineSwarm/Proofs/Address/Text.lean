import AffineSwarm.Address.Text

/-!
# Written addresses

An address reads back from its text (`ofText?_text`). Each reader takes what was written for it
off the front of a text, whatever comes after that, as long as it does not start with a digit.

With the groups of an IPv6 address, three things could go wrong. A group could be taken for the
start of an IPv4 address; but no point comes after it (`host4_groupChars`). Too many or too few
groups could be read where zeros are left out; but reading stops at the second colon
(`stops_colons`). And what is left out could be something else than zeros
(`exists_longestRun`).
-/

namespace AffineSwarm.Address

open Decimal (digitText)
open Hex (valueIn?)

namespace Reader

variable {base n : Nat} {text rest : List Char}

theorem char_cons (c : Char) (rest : List Char) : char c (c :: rest) = some ((), rest) := if_pos rfl

theorem char_eq_none {c : Char} (h : text.head? ≠ some c) : char c text = none := by
  cases text with
  | nil => rfl
  | cons d rest => exact if_neg fun hd => h (congrArg some hd)

-- ---------------------------------------------------------------------------
-- Numbers
-- ---------------------------------------------------------------------------

/-- What may come after a number of any base: it does not start with a digit. -/
def Ends (rest : List Char) : Prop := ∀ c ∈ rest.head?, valueIn? 16 c = none

theorem ends_nil : Ends [] := nofun

theorem ends_cons {c : Char} (hc : valueIn? 16 c = none) (rest : List Char) : Ends (c :: rest) := by
  intro d hd
  rw [← Option.some.inj hd]
  exact hc

theorem valueIn?_eq_none (hbase : base ≤ 16) {c : Char} (h : valueIn? 16 c = none) :
    valueIn? base c = none := by
  rw [valueIn?] at h ⊢
  cases hvalue : Hex.value? c with
  | none => rfl
  | some v =>
    rw [hvalue] at h
    have hlarge : ¬v < 16 := fun hlt => Option.some_ne_none _ ((if_pos hlt).symm.trans h)
    exact if_neg (by omega)

theorem digits_of_ends (hbase : base ≤ 16) (h : Ends rest) : digits base rest = ([], rest) := by
  cases rest with
  | nil => rfl
  | cons c rest => rw [digits, valueIn?_eq_none hbase (h c rfl)]

/-- Digits are read up to the first character that is none. -/
theorem digits_append {cs : List Char} {ns : List Nat} (hbase : base ≤ 16)
    (h : cs.map (valueIn? base) = ns.map some) (hrest : Ends rest) :
    digits base (cs ++ rest) = (ns, rest) := by
  induction cs generalizing ns with
  | nil =>
    rw [List.map_eq_nil_iff.mp h.symm]
    exact digits_of_ends hbase hrest
  | cons c cs ih =>
    cases ns with
    | nil => cases h
    | cons n ns =>
      obtain ⟨hc, hcs⟩ := List.cons.inj h
      rw [List.cons_append, digits, hc, ih hcs]

theorem valueIn?_digitChar (hn : n < base) (hbase : base ≤ 16) :
    valueIn? base n.digitChar = some n := by
  have hvalue : ∀ n < 16, Hex.value? n.digitChar = some n := by decide
  rw [valueIn?, hvalue n (by omega)]
  exact if_pos hn

/-- The digits that a number is written with have its value, and none stands in front but needs
to be there. -/
theorem exists_values (hbase : 1 < base) (hlimit : base ≤ 16) (n : Nat) :
    ∃ ns, (Nat.toDigits base n).map (valueIn? base) = ns.map some ∧
      ns.foldl (fun n d => n * base + d) 0 = n ∧ (ns.head? = some 0 → ns = [0]) ∧ ns ≠ [] := by
  induction n using Nat.strongRecOn with
  | ind n ih =>
    rw [Nat.toDigits_eq_if hbase]
    split
    · next hsmall =>
      refine ⟨[n], ?_, ?_, ?_, List.cons_ne_nil n []⟩
      · rw [List.map_singleton, List.map_singleton, valueIn?_digitChar hsmall hlimit]
      · rw [List.foldl_cons, List.foldl_nil, Nat.zero_mul, Nat.zero_add]
      · intro hhead
        rw [Option.some.inj hhead]
    · next hlarge =>
      have hpositive : 0 < base := by omega
      have hfewer : n / base < n := Nat.div_lt_self (by omega) hbase
      obtain ⟨ns, hvalues, hvalue, hhead, hne⟩ := ih (n / base) hfewer
      have hlast : n % base < base := Nat.mod_lt n hpositive
      refine ⟨ns ++ [n % base], ?_, ?_, ?_, ?_⟩
      · rw [List.map_append, List.map_append, hvalues, List.map_singleton, List.map_singleton,
          valueIn?_digitChar hlast hlimit]
      · rw [List.foldl_append, hvalue, List.foldl_cons, List.foldl_nil, Nat.div_add_mod']
      · intro hzero
        obtain ⟨k, ks, rfl⟩ := List.exists_cons_of_ne_nil hne
        rw [hhead hzero] at hvalue
        have hquotient : 0 < n / base := Nat.div_pos (Nat.le_of_not_lt hlarge) hpositive
        have hnone : n / base = 0 := by
          rw [← hvalue, List.foldl_cons, List.foldl_nil, Nat.zero_mul]
        omega
      · exact List.append_ne_nil_of_left_ne_nil hne _

/-- A number is read as it was written. -/
theorem number_toDigits {bound : Nat} {limit? : Option Nat} {leadingZeros : Bool}
    (hbase : 1 < base) (hsixteen : base ≤ 16) (hn : n < bound)
    (hlimit : ∀ limit ∈ limit?, (Nat.toDigits base n).length ≤ limit) (hrest : Ends rest) :
    number base bound limit? leadingZeros (Nat.toDigits base n ++ rest) = some (n, rest) := by
  obtain ⟨ns, hvalues, hvalue, hhead, hne⟩ := exists_values hbase hsixteen n
  have hlength : (Nat.toDigits base n).length = ns.length := by
    have hlengths := congrArg List.length hvalues
    rwa [List.length_map, List.length_map] at hlengths
  have hempty : ns.isEmpty = false := List.isEmpty_eq_false_iff.mpr hne
  have hzeros : (!leadingZeros && ns.head? == some 0 && decide (1 < ns.length)) = false := by
    cases leadingZeros with
    | true => rfl
    | false =>
      rw [Bool.not_false, Bool.true_and, Bool.and_eq_false_imp, beq_iff_eq]
      intro hzero
      rw [hhead hzero]
      rfl
  rw [number, digits_append hsixteen hvalues hrest]
  simp only [hvalue, hempty, hzeros, decide_eq_false (Nat.not_le_of_lt hn), Bool.false_or,
    Bool.or_false]
  cases limit? with
  | none => rfl
  | some limit =>
    have hfits : ¬limit < ns.length := by
      have hle := hlimit limit rfl
      omega
    simp only [decide_eq_false hfits]
    rfl

/-- A number leaves what comes after its digits. -/
theorem rest_of_number {bound : Nat} {limit? : Option Nat} {leadingZeros : Bool}
    (h : number base bound limit? leadingZeros text = some (n, rest)) :
    (digits base text).2 = rest := by
  obtain ⟨-, hread⟩ := Option.ite_none_left_eq_some.mp h
  exact congrArg Prod.snd (Option.some.inj hread)

theorem number_of_ends {bound : Nat} {limit? : Option Nat} {leadingZeros : Bool}
    (hbase : base ≤ 16) (hrest : Ends rest) :
    number base bound limit? leadingZeros rest = none := by
  rw [number, digits_of_ends hbase hrest]
  rfl

-- ---------------------------------------------------------------------------
-- IPv4 addresses
-- ---------------------------------------------------------------------------

theorem octet_append (b : UInt8) (hrest : Ends rest) :
    octet ((digitText b.toNat).toList ++ rest) = some (b, rest) := by
  have hb : b.toNat < 256 := b.toNat_lt
  have hlength : (Nat.toDigits 10 b.toNat).length ≤ 3 :=
    (Nat.length_toDigits_le_iff (by decide) (by decide)).mpr (Nat.lt_trans hb (by decide))
  have hnumber : number 10 256 (some 3) false (Nat.toDigits 10 b.toNat ++ rest) = _ :=
    number_toDigits (by decide) (by decide) hb
      (fun limit hlimit => Option.some.inj hlimit ▸ hlength) hrest
  rw [octet, digitText, Nat.toList_repr, hnumber]
  show some (UInt8.ofNat b.toNat, rest) = _
  rw [UInt8.ofNat_toNat]

theorem toList_host4Text (h : Host4) :
    h.text.toList = (digitText h.a.toNat).toList ++ '.' :: ((digitText h.b.toNat).toList ++
      '.' :: ((digitText h.c.toNat).toList ++ '.' :: (digitText h.d.toNat).toList)) := by
  have hpoint : ".".toList = ['.'] := rfl
  simp only [Host4.text, String.toList_append, hpoint, List.append_assoc, List.cons_append,
    List.nil_append]

/-- An IPv4 address is read as it was written. -/
theorem host4_append (h : Host4) (hrest : Ends rest) :
    host4 (h.text.toList ++ rest) = some (h, rest) := by
  have hpoint : ∀ rest, Ends ('.' :: rest) := fun rest => ends_cons (by decide) rest
  simp only [host4, toList_host4Text, List.append_assoc, List.cons_append,
    octet_append _ (hpoint _), octet_append _ hrest, char_cons, Option.bind_eq_bind,
    Option.bind_some]
  rfl

theorem rest_of_octet {b : UInt8} (h : octet text = some (b, rest)) :
    (digits 10 text).2 = rest := by
  rw [octet, Option.bind_eq_bind, Option.bind_eq_some_iff] at h
  obtain ⟨⟨n, _⟩, hnumber, hread⟩ := h
  obtain ⟨-, rfl⟩ := Prod.mk.inj (Option.some.inj hread)
  exact rest_of_number hnumber

theorem host4_of_ends (h : Ends rest) : host4 rest = none := by
  rw [host4, octet, number_of_ends (by decide) h]
  rfl

/-- What has no point after its first digits is no IPv4 address. -/
theorem host4_eq_none (h : (digits 10 text).2.head? ≠ some '.') : host4 text = none := by
  cases hoctet : octet text with
  | none =>
    rw [host4, hoctet]
    rfl
  | some read =>
    obtain ⟨a, rest⟩ := read
    rw [rest_of_octet hoctet] at h
    simp only [host4, hoctet, Option.bind_eq_bind, Option.bind_some, char_eq_none h,
      Option.bind_none]

theorem port_append (p : UInt16) :
    port (':' :: (digitText p.toNat).toList) = some (p, []) := by
  have hp : p.toNat < 0x10000 := p.toNat_lt
  have hnumber : number 10 0x10000 none true (Nat.toDigits 10 p.toNat ++ []) = _ :=
    number_toDigits (by decide) (by decide) hp nofun ends_nil
  rw [List.append_nil] at hnumber
  rw [port, char_cons, digitText, Nat.toList_repr]
  simp only [Option.bind_eq_bind, Option.bind_some, hnumber]
  exact congrArg (fun p => some (p, [])) UInt16.ofNat_toNat

-- ---------------------------------------------------------------------------
-- Groups
-- ---------------------------------------------------------------------------

/-- What may come after a group: it starts with neither a digit nor a point. -/
structure EndsGroup (rest : List Char) : Prop where
  ends : Ends rest
  no_point : rest.head? ≠ some '.'

theorem endsGroup_cons {c : Char} (hc : valueIn? 16 c = none) (hpoint : c ≠ '.')
    (rest : List Char) : EndsGroup (c :: rest) :=
  ⟨ends_cons hc rest, fun h => hpoint (Option.some.inj h)⟩

/-- There is no point after the digits of a text if there is none in it. -/
theorem head_digits_append {cs : List Char} (hcs : '.' ∉ cs) (hrest : EndsGroup rest) :
    (digits 10 (cs ++ rest)).2.head? ≠ some '.' := by
  induction cs with
  | nil =>
    rw [List.nil_append, digits_of_ends (by decide) hrest.ends]
    exact hrest.no_point
  | cons c cs ih =>
    obtain ⟨hc, hcs⟩ := not_or.mp (mt List.mem_cons.mpr hcs)
    rw [List.cons_append, digits]
    cases valueIn? 10 c with
    | none => exact fun hpoint => hc (Option.some.inj hpoint).symm
    | some _ => exact ih hcs

/-- What a group of an IPv6 address is written as. -/
def groupChars (g : UInt16) : List Char := (Host6.groupText g).toList

theorem groupChars_eq (g : UInt16) : groupChars g = Nat.toDigits 16 g.toNat := String.toList_ofList

theorem number_groupChars (g : UInt16) (hrest : Ends rest) :
    number 16 0x10000 (some 4) true (groupChars g ++ rest) = some (g.toNat, rest) := by
  have hg : g.toNat < 0x10000 := g.toNat_lt
  have hlength : (Nat.toDigits 16 g.toNat).length ≤ 4 :=
    (Nat.length_toDigits_le_iff (by decide) (by decide)).mpr hg
  rw [groupChars_eq]
  exact number_toDigits (by decide) (by decide) hg
    (fun limit hlimit => Option.some.inj hlimit ▸ hlength) hrest

theorem point_notMem_groupChars (g : UInt16) : '.' ∉ groupChars g := by
  rw [groupChars_eq]
  intro hpoint
  obtain ⟨ns, hvalues, -⟩ := exists_values (by decide : 1 < 16) (by decide) g.toNat
  have hvalue : valueIn? 16 '.' ∈ ns.map some := hvalues ▸ List.mem_map_of_mem hpoint
  obtain ⟨n, -, hn⟩ := List.mem_map.mp hvalue
  have hnone : valueIn? 16 '.' = none := by decide
  exact Option.some_ne_none n (hn.trans hnone)

/-- A group is not taken for the start of an IPv4 address. -/
theorem host4_groupChars (g : UInt16) (hrest : EndsGroup rest) :
    host4 (groupChars g ++ rest) = none :=
  host4_eq_none (head_digits_append (point_notMem_groupChars g) hrest)

/-- No further group is read. -/
def Stops (isFirst : Bool) (text : List Char) : Prop :=
  ∀ t, separator isFirst text = some ((), t) → Ends t

theorem groups_of_stops {isFirst : Bool} (h : Stops isFirst text) (limit : Nat) :
    groups limit isFirst text = (([], false), text) := by
  cases limit with
  | zero => rfl
  | succ limit =>
    have hnone : ∀ {α : Type} (read : Reader α), (∀ t, Ends t → read t = none) →
        (separator isFirst text >>= fun t => read t.2) = none := by
      intro α read hread
      rw [Option.bind_eq_bind, Option.bind_eq_none_iff]
      exact fun t ht => hread t.2 (h t.2 ht)
    have hgroup := hnone (number 16 0x10000 (some 4) true) fun _ => number_of_ends (by decide)
    have hembedded := hnone host4 fun _ => host4_of_ends
    rw [groups]
    simp only [hgroup, hembedded, ite_self]

theorem groups_succ {isFirst : Bool} {g : UInt16} {after : List Char}
    (h : separator isFirst text = some ((), groupChars g ++ after)) (hafter : EndsGroup after)
    (limit : Nat) :
    groups (limit + 1) isFirst text =
      ((g :: (groups limit false after).1.1, (groups limit false after).1.2),
        (groups limit false after).2) := by
  have hembedded : (if limit = 0 then none else
      separator isFirst text >>= fun t => host4 t.2) = none := by
    split
    · rfl
    · rw [h, Option.bind_eq_bind, Option.bind_some, host4_groupChars g hafter]
  have hgroup : (separator isFirst text >>= fun t => number 16 0x10000 (some 4) true t.2) =
      some (g.toNat, after) := by
    rw [h, Option.bind_eq_bind, Option.bind_some, number_groupChars g hafter.ends]
  rw [groups]
  simp only [hgroup, hembedded, UInt16.ofNat_toNat]

theorem separator_cons (rest : List Char) : separator false (':' :: rest) = some ((), rest) :=
  char_cons ':' rest

/-- What groups that come after another one are written as. -/
def laterChars (gs : List UInt16) : List Char := gs.flatMap fun g => ':' :: groupChars g

theorem laterChars_cons (g : UInt16) (gs : List UInt16) :
    laterChars (g :: gs) = ':' :: (groupChars g ++ laterChars gs) := List.flatMap_cons

theorem groupsText_cons (g : UInt16) (gs : List UInt16) :
    (Host6.groupsText (g :: gs)).toList = groupChars g ++ laterChars gs := by
  induction gs generalizing g with
  | nil =>
    rw [Host6.groupsText, List.map_singleton, String.intercalate_singleton]
    exact (List.append_nil _).symm
  | cons g' gs ih =>
    rw [laterChars_cons, ← ih]
    rw [Host6.groupsText, List.map_cons, List.map_cons, String.intercalate_cons_cons,
      ← List.map_cons]
    rw [String.toList_append, String.toList_append, List.append_assoc]
    rfl

theorem endsGroup_laterChars (gs : List UInt16) (hrest : EndsGroup rest) :
    EndsGroup (laterChars gs ++ rest) := by
  cases gs with
  | nil => exact hrest
  | cons g gs =>
    rw [laterChars_cons]
    exact endsGroup_cons (by decide) (by decide) _

/-- Groups that come after another one are read as they were written. -/
theorem groups_laterChars {gs : List UInt16} {limit : Nat} (hlimit : gs.length ≤ limit)
    (hstops : gs.length = limit ∨ Stops false rest) (hrest : EndsGroup rest) :
    groups limit false (laterChars gs ++ rest) = ((gs, false), rest) := by
  induction gs generalizing limit with
  | nil =>
    rcases hstops with rfl | hstops
    · rfl
    · exact groups_of_stops hstops limit
  | cons g gs ih =>
    obtain ⟨fewer, rfl⟩ := Nat.exists_eq_add_one.mpr (Nat.lt_of_lt_of_le gs.length.succ_pos hlimit)
    rw [List.length_cons, Nat.add_right_cancel_iff] at hstops
    have hlater := endsGroup_laterChars gs hrest
    have hseparator : separator false (laterChars (g :: gs) ++ rest) =
        some ((), groupChars g ++ (laterChars gs ++ rest)) := by
      rw [laterChars_cons, List.cons_append, List.append_assoc, separator_cons]
    rw [groups_succ hseparator hlater, ih (Nat.le_of_succ_le_succ hlimit) hstops]

/-- Groups are read as they were written. -/
theorem groups_groupsText {gs : List UInt16} {limit : Nat} (hlimit : gs.length ≤ limit)
    (hstops : gs.length = limit ∨ Stops gs.isEmpty rest) (hrest : EndsGroup rest) :
    groups limit true ((Host6.groupsText gs).toList ++ rest) = ((gs, false), rest) := by
  cases gs with
  | nil =>
    rcases hstops with rfl | hstops
    · rfl
    · exact groups_of_stops hstops limit
  | cons g gs =>
    obtain ⟨fewer, rfl⟩ := Nat.exists_eq_add_one.mpr (Nat.lt_of_lt_of_le gs.length.succ_pos hlimit)
    rw [List.length_cons, Nat.add_right_cancel_iff] at hstops
    have hseparator : separator true ((Host6.groupsText (g :: gs)).toList ++ rest) =
        some ((), groupChars g ++ (laterChars gs ++ rest)) := by
      rw [groupsText_cons, List.append_assoc]
      rfl
    rw [groups_succ hseparator (endsGroup_laterChars gs hrest),
      groups_laterChars (Nat.le_of_succ_le_succ hlimit) hstops hrest]

-- ---------------------------------------------------------------------------
-- IPv6 addresses
-- ---------------------------------------------------------------------------

theorem eight?_toList (h : Host6) : eight? h.toList = some h := by
  rw [eight?, dif_pos h.length_toList]
  exact congrArg some (Vector.toArray_inj.mp Vector.toArray_toList)

theorem stops_of_ends (h : Ends rest) : Stops true rest := by
  intro t ht
  rw [← (Prod.mk.inj (Option.some.inj ht)).2]
  exact h

theorem stops_of_head (h : rest.head? ≠ some ':') : Stops false rest := by
  intro t ht
  rw [separator, if_neg Bool.false_ne_true, char_eq_none h] at ht
  cases ht

/-- Two colons end the groups before them. -/
theorem stops_colons (isFirst : Bool) (rest : List Char) : Stops isFirst (':' :: ':' :: rest) := by
  have hcolon : ∀ rest, Ends (':' :: rest) := fun rest => ends_cons (by decide) rest
  cases isFirst with
  | true => exact stops_of_ends (hcolon _)
  | false =>
    intro t ht
    rw [separator_cons] at ht
    rw [← (Prod.mk.inj (Option.some.inj ht)).2]
    exact hcolon _

/-- Eight groups make an address. -/
theorem host6_groupsText (h : Host6) (hrest : EndsGroup rest) :
    host6 ((Host6.groupsText h.toList).toList ++ rest) = some (h, rest) := by
  have hgroups : groups 8 true ((Host6.groupsText h.toList).toList ++ rest) = _ :=
    groups_groupsText (Nat.le_of_eq h.length_toList) (.inl h.length_toList) hrest
  rw [host6, hgroups]
  simp only [h.length_toList, if_true, eight?_toList, Option.map_some]

/-- Two colons stand for the zeros that are missing. -/
theorem host6_colons {h : Host6} {front back : List UInt16} {after : List Char} {isEmbedded : Bool}
    (hfront : front.length < 8)
    (hback : groups (7 - front.length) true after = ((back, isEmbedded), rest))
    (hgroups : front ++ List.replicate (8 - front.length - back.length) 0 ++ back = h.toList) :
    host6 ((Host6.groupsText front).toList ++ ':' :: ':' :: after) = some (h, rest) := by
  have hread : groups 8 true ((Host6.groupsText front).toList ++ ':' :: ':' :: after) = _ :=
    groups_groupsText (Nat.le_of_lt hfront) (.inr (stops_colons _ after))
      (endsGroup_cons (by decide) (by decide) _)
  rw [host6, hread]
  simp only [if_neg (Nat.ne_of_lt hfront), Bool.false_eq_true, if_false, char_cons,
    Option.bind_eq_bind, Option.bind_some, hback, hgroups, eight?_toList]
  rfl

/-- Zeros stand in front of a list of groups as often as its run of zeros is long. -/
theorem exists_zeroRun (gs : List UInt16) :
    ∃ back, gs = List.replicate (Host6.zeroRun gs) 0 ++ back := by
  have hzeros : gs.takeWhile (· == 0) = List.replicate (Host6.zeroRun gs) 0 :=
    List.eq_replicate_iff.mpr ⟨rfl, fun g hg =>
      eq_of_beq (List.all_eq_true.mp List.all_takeWhile g hg)⟩
  refine ⟨gs.dropWhile (· == 0), ?_⟩
  rw [← hzeros, List.takeWhile_append_dropWhile]

/-- The longest run of zeros is a run of zeros. -/
theorem exists_longestRun (start : Nat) (gs : List UInt16) :
    ∃ front back, gs = front ++ List.replicate (Host6.longestRun start gs).2 0 ++ back ∧
      (Host6.longestRun start gs).1 = start + front.length := by
  induction gs generalizing start with
  | nil => exact ⟨[], [], rfl, rfl⟩
  | cons g gs ih =>
    rw [Host6.longestRun]
    split
    · obtain ⟨back, hback⟩ := exists_zeroRun (g :: gs)
      exact ⟨[], back, hback, rfl⟩
    · obtain ⟨front, back, hgs, hstart⟩ := ih (start + 1)
      refine ⟨g :: front, back, ?_, ?_⟩
      · rw [List.cons_append, List.cons_append, ← hgs]
      · rw [hstart, List.length_cons]
        omega

/-- The two halves of a group make the group. -/
theorem halves (g : UInt16) :
    (g >>> 8).toUInt8.toUInt16 <<< 8 ||| g.toUInt8.toUInt16 = g := by
  have hg : g.toNat < 65536 := g.toNat_lt
  have hhigh : g.toNat >>> 8 % 256 = g.toNat / 256 := by
    rw [Nat.shiftRight_eq_div_pow]
    omega
  have hfits : (g.toNat / 256) <<< 8 % 65536 = (g.toNat / 256) <<< 8 := by
    rw [Nat.shiftLeft_eq]
    omega
  have hjoined : (g.toNat / 256) <<< 8 ||| g.toNat % 256 = g.toNat := by
    rw [← Nat.shiftLeft_add_eq_or_of_lt (Nat.mod_lt _ (by decide)), Nat.shiftLeft_eq]
    omega
  apply UInt16.toNat_inj.mp
  simp only [UInt16.toNat_or, UInt16.toNat_shiftLeft, UInt16.toNat_shiftRight,
    UInt8.toNat_toUInt16, UInt16.toNat_toUInt8]
  show (g.toNat >>> 8 % 256) <<< 8 % 65536 ||| g.toNat % 256 = g.toNat
  rw [hhigh, hfits, hjoined]

/-- The two groups in the place of an IPv4 address. -/
def hostGroups (host : Host4) : List UInt16 :=
  [host.a.toUInt16 <<< 8 ||| host.b.toUInt16, host.c.toUInt16 <<< 8 ||| host.d.toUInt16]

/-- The groups of an address with an IPv4 address in it. -/
theorem toList_of_embedded? {h : Host6} {host : Host4} (hhost : h.embedded? = some host) :
    h.toList = List.replicate 5 0 ++ 0xffff :: hostGroups host := by
  obtain ⟨⟨h0, h1, h2, h3, h4, h5⟩, hhost⟩ := Option.ite_none_right_eq_some.mp hhost
  have hgroups : h.toList = [h[0], h[1], h[2], h[3], h[4], h[5], h[6], h[7]] := by
    refine List.ext_getElem h.length_toList fun i hi _ => ?_
    rw [h.length_toList] at hi
    rw [Vector.getElem_toList]
    have hplace : i = 0 ∨ i = 1 ∨ i = 2 ∨ i = 3 ∨ i = 4 ∨ i = 5 ∨ i = 6 ∨ i = 7 := by omega
    rcases hplace with rfl | rfl | rfl | rfl | rfl | rfl | rfl | rfl <;> rfl
  rw [← Option.some.inj hhost, hostGroups, halves, halves, hgroups, h0, h1, h2, h3, h4, h5]
  rfl

/-- An IPv4 address in the place of the last two groups is read as it was written. -/
theorem groups_embedded (host : Host4) (hrest : Ends rest) :
    groups 7 true (groupChars 0xffff ++ ':' :: (host.text.toList ++ rest)) =
      ((0xffff :: hostGroups host, true), rest) := by
  have hread : (separator false (':' :: (host.text.toList ++ rest)) >>= fun t => host4 t.2) =
      some (host, rest) := by
    rw [separator_cons, Option.bind_eq_bind, Option.bind_some, host4_append host hrest]
  have hlast : groups (5 + 1) false (':' :: (host.text.toList ++ rest)) =
      ((hostGroups host, true), rest) := by
    simp only [groups, if_neg (by decide : ¬5 = 0), hread, hostGroups]
  have hfirst : separator true (groupChars 0xffff ++ ':' :: (host.text.toList ++ rest)) =
      some ((), groupChars 0xffff ++ ':' :: (host.text.toList ++ rest)) := if_pos rfl
  rw [groups_succ hfirst (endsGroup_cons (by decide) (by decide) _), hlast]

/-- Zeros that are left out are found again. -/
theorem host6_zeros {h : Host6} {front back : List UInt16} {length : Nat}
    (hgroups : h.toList = front ++ List.replicate length 0 ++ back) (hlong : 1 < length)
    (hrest : EndsGroup rest) (hcolon : rest.head? ≠ some ':') :
    host6 ((Host6.groupsText front).toList ++ ':' :: ':' ::
      ((Host6.groupsText back).toList ++ rest)) = some (h, rest) := by
  have hlength := congrArg List.length hgroups
  rw [h.length_toList, List.length_append, List.length_append, List.length_replicate] at hlength
  have hstops : Stops back.isEmpty rest := by
    cases back.isEmpty with
    | true => exact stops_of_ends hrest.ends
    | false => exact stops_of_head hcolon
  have hmissing : 8 - front.length - back.length = length := by omega
  refine host6_colons (by omega) (groups_groupsText (by omega) (.inr hstops) hrest) ?_
  rw [hmissing, hgroups]

/-- An IPv6 address is read as it was written. -/
theorem host6_append (h : Host6) (hrest : EndsGroup rest) (hcolon : rest.head? ≠ some ':') :
    host6 ((Host6.text h).toList ++ rest) = some (h, rest) := by
  rw [Host6.text]
  split
  · next host hhost =>
    have hmark : "::ffff:".toList = ':' :: ':' :: (groupChars 0xffff ++ [':']) := rfl
    have hback : groups (7 - ([] : List UInt16).length) true _ = _ :=
      groups_embedded host hrest.ends
    have hnone : (Host6.groupsText []).toList = [] := rfl
    have hread := host6_colons (by decide) hback (toList_of_embedded? hhost).symm
    rw [hnone, List.nil_append] at hread
    rw [String.toList_append, hmark, List.append_assoc, List.cons_append, List.cons_append,
      List.append_assoc, List.singleton_append, hread]
  · obtain ⟨front, back, hgroups, hstart⟩ := exists_longestRun 0 h.toList
    dsimp only
    split
    · next hlong =>
      have hcolons : "::".toList = [':', ':'] := rfl
      rw [hstart, Nat.zero_add]
      generalize (Host6.longestRun 0 h.toList).2 = length at hgroups hlong ⊢
      have hfront : h.toList.take front.length = front := by
        rw [hgroups, List.append_assoc, List.take_left]
      have hback : h.toList.drop (front.length + length) = back := by
        rw [hgroups]
        exact List.drop_left' (by rw [List.length_append, List.length_replicate])
      rw [hfront, hback, String.toList_append, String.toList_append, hcolons, List.append_assoc,
        List.append_assoc, List.cons_append, List.singleton_append,
        host6_zeros hgroups hlong hrest hcolon]
    · exact host6_groupsText h hrest

-- ---------------------------------------------------------------------------
-- Scopes, ports and the whole
-- ---------------------------------------------------------------------------

/-- What a scope number is written as. -/
def scopeText (n : UInt32) : String := if n = 0 then "" else "%" ++ digitText n.toNat

theorem scope_append (n : UInt32) (rest : List Char) :
    scope ((scopeText n).toList ++ ']' :: rest) = (n, ']' :: rest) := by
  rw [scopeText]
  split
  · next hzero =>
    rw [hzero]
    rfl
  · have hn : n.toNat < 0x100000000 := n.toNat_lt
    have hnumber : number 10 0x100000000 none true (Nat.toDigits 10 n.toNat ++ ']' :: rest) = _ :=
      number_toDigits (by decide) (by decide) hn nofun (ends_cons (by decide) rest)
    have hpercent : "%".toList = ['%'] := rfl
    rw [String.toList_append, hpercent, List.singleton_append, List.cons_append, digitText,
      Nat.toList_repr, scope, char_cons]
    simp only [Option.bind_eq_bind, Option.bind_some, hnumber, UInt32.ofNat_toNat]

/-- Groups end at a scope, and at the bracket if there is none. -/
theorem endsHost_scope (n : UInt32) (rest : List Char) :
    EndsGroup ((scopeText n).toList ++ ']' :: rest) ∧
      ((scopeText n).toList ++ ']' :: rest).head? ≠ some ':' := by
  rw [scopeText]
  split
  · exact ⟨endsGroup_cons (by decide) (by decide) rest,
      fun h => absurd (Option.some.inj h) (by decide)⟩
  · rw [String.toList_append]
    exact ⟨endsGroup_cons (by decide) (by decide) _,
      fun h => absurd (Option.some.inj h) (by decide)⟩

theorem whole_eq_some {α : Type} {read : Reader α} {a : α} (h : read text = some (a, [])) :
    whole read text = some a := by
  rw [whole, h]

end Reader

open Reader

theorem toList_text_v4 (host : Host4) (port : UInt16) :
    (text (.v4 host port)).toList =
      host.text.toList ++ ':' :: (digitText port.toNat).toList := by
  have hcolon : ":".toList = [':'] := rfl
  rw [text, String.toList_append, String.toList_append, hcolon, List.append_assoc,
    List.singleton_append]

theorem toList_text_v6 (host : Host6) (port : UInt16) (scope : UInt32) :
    (text (.v6 host port scope)).toList = '[' :: ((Host6.text host).toList ++
      ((scopeText scope).toList ++ ']' :: ':' :: (digitText port.toNat).toList)) := by
  have hopen : "[".toList = ['['] := rfl
  have hclose : "]:".toList = [']', ':'] := rfl
  rw [text, ← scopeText, String.toList_append, String.toList_append, String.toList_append,
    String.toList_append, hopen, hclose]
  simp only [List.append_assoc, List.cons_append, List.nil_append]

theorem address4_text (host : Host4) (p : UInt16) :
    address4 (text (.v4 host p)).toList = some (.v4 host p, []) := by
  have hcolon : Ends (':' :: (digitText p.toNat).toList) := ends_cons (by decide) _
  rw [toList_text_v4]
  simp only [address4, host4_append host hcolon, port_append, Option.bind_eq_bind,
    Option.bind_some]
  rfl

theorem address6_text (host : Host6) (p : UInt16) (n : UInt32) :
    address6 (text (.v6 host p n)).toList = some (.v6 host p n, []) := by
  obtain ⟨hends, hcolon⟩ := endsHost_scope n (':' :: (digitText p.toNat).toList)
  rw [toList_text_v6]
  simp only [address6, char_cons, host6_append host hends hcolon, scope_append, port_append,
    Option.bind_eq_bind, Option.bind_some]
  rfl

/-- An IPv6 address is not taken for an IPv4 address. -/
theorem whole_address4_text (host : Host6) (p : UInt16) (n : UInt32) :
    whole address4 (text (.v6 host p n)).toList = none := by
  have hbracket : ∀ rest, host4 ('[' :: rest) = none :=
    fun rest => host4_of_ends (ends_cons (by decide) rest)
  rw [whole, toList_text_v6, address4, hbracket]
  rfl

/-- **A written address reads back.** -/
theorem ofText?_text (a : Address) : ofText? a.text = some a := by
  cases a with
  | v4 host port =>
    rw [ofText?, whole_eq_some (address4_text host port), Option.some_or]
  | v6 host port scope =>
    rw [ofText?, whole_address4_text, whole_eq_some (address6_text host port scope),
      Option.none_or]

end AffineSwarm.Address
