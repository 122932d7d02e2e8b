import AffineSwarm.Proofs.Binary64.Order
import AffineSwarm.Proofs.Gene.Slots
import AffineSwarm.Wire.Frame

/-!
# The frame format

The format of frames is exact: a byte string is accepted as a message exactly if it is
the frame of that message and the message is valid, so no message has two spellings and
no frame two meanings. The only messages that are not valid are migrations whose
fitness is no number from 0 to 1; their frames are refused as malformed.

Nothing is assumed of the keyed hash but that it is a function with tags of 32 bytes.

Main results:

* `decode_eq_ok_iff` — what is accepted.
* `decode_encode_eq` — what becomes of each frame that is written.
* `frame_format_exact` — the format as a whole, with its layout (`layout`) and the
  absence of reads past the end of a buffer.
-/

namespace AffineSwarm

/-- Whether a message may travel. -/
def Message.IsValid : Message → Prop
  | .hello _ => True
  | .migrate _ _ fitness => Binary64.Within .zero .one fitness
  | .ack _ => True

namespace Frame

open BigEndian (ofNat toNat)

-- ---------------------------------------------------------------------------
-- Numbers in a fixed number of bytes
-- ---------------------------------------------------------------------------

/-- Four bytes spell the identity that they are the bytes of. -/
theorem ofNat_toNat_uint32 {bytes : List UInt8} (h : bytes.length = 4) :
    ofNat 4 (UInt32.ofNat (toNat bytes)).toNat = bytes := by
  have hlt : toNat bytes < 4294967296 := by
    have := BigEndian.toNat_lt bytes
    rwa [h] at this
  rw [UInt32.toNat_ofNat', Nat.mod_eq_of_lt hlt, ← h, BigEndian.ofNat_toNat]

theorem uint32_toNat_ofNat (n : UInt32) : UInt32.ofNat (toNat (ofNat 4 n.toNat)) = n := by
  rw [BigEndian.toNat_ofNat, Nat.mod_eq_of_lt (show n.toNat < BigEndian.count 4 from n.toNat_lt),
    UInt32.ofNat_toNat]

/-- Eight bytes spell the number that they are the bytes of. -/
theorem ofNat_toNat_uint64 {bytes : List UInt8} (h : bytes.length = 8) :
    ofNat 8 (UInt64.ofNat (toNat bytes)).toNat = bytes := by
  have hlt : toNat bytes < 18446744073709551616 := by
    have := BigEndian.toNat_lt bytes
    rwa [h] at this
  rw [UInt64.toNat_ofNat', Nat.mod_eq_of_lt hlt, ← h, BigEndian.ofNat_toNat]

theorem uint64_toNat_ofNat (n : UInt64) : UInt64.ofNat (toNat (ofNat 8 n.toNat)) = n := by
  rw [BigEndian.toNat_ofNat, Nat.mod_eq_of_lt (show n.toNat < BigEndian.count 8 from n.toNat_lt),
    UInt64.ofNat_toNat]

theorem takeBytes?_append {width : Nat} {left : List UInt8} (rest : List UInt8)
    (h : left.length = width) : takeBytes? width (left ++ rest) = some (left, rest) := by
  rw [takeBytes?_of_le (by rw [List.length_append]; omega), List.take_left' h, List.drop_left' h]

theorem takeNumber?_append {width : Nat} {left : List UInt8} (rest : List UInt8)
    (h : left.length = width) : takeNumber? width (left ++ rest) = some (toNat left, rest) := by
  rw [takeNumber?, takeBytes?_append rest h, Option.map_some]

-- ---------------------------------------------------------------------------
-- The fields of a migration
-- ---------------------------------------------------------------------------

theorem isFitness_iff {x : Binary64} : isFitness x = true ↔ Binary64.Within .zero .one x := by
  rw [isFitness, Bool.and_eq_true, Binary64.Within]
  constructor
  · rintro ⟨hzero, hone⟩
    exact ⟨(Binary64.le_iff.mp hone).1, hzero, hone⟩
  · rintro ⟨-, hzero, hone⟩
    exact ⟨hzero, hone⟩

theorem decodeFitness?_ofNat (id : Nat) (gene : Gene) (x : Binary64) :
    decodeFitness? id gene (ofNat 8 x.bits.toNat) =
      some (if isFitness x then .ok (.migrate (UInt32.ofNat id) gene x)
        else .error (malformed (.fitness x))) := by
  rw [decodeFitness?, ← List.append_nil (ofNat 8 x.bits.toNat),
    takeNumber?_append [] (BigEndian.length_ofNat ..)]
  simp only [Option.bind_eq_bind, Option.bind_some, uint64_toNat_ofNat]
  split <;> rfl

theorem decodeSlots?_padded (id : Nat) (gene : Gene) (x : Binary64) :
    decodeSlots? id gene.length (gene.padded ++ ofNat 8 x.bits.toNat) =
      some (if isFitness x then .ok (.migrate (UInt32.ofNat id) gene x)
        else .error (malformed (.fitness x))) := by
  rw [decodeSlots?, takeBytes?_append _ gene.length_padded]
  simp only [Option.bind_eq_bind, Option.bind_some, Gene.any_drop_padded,
    Gene.ofValues?_take_padded, Bool.false_eq_true, if_false, decodeFitness?_ofNat]

/-- The fields of a migration read back, up to the check of the fitness. -/
theorem decodeMigration?_fields (id : NodeId) (gene : Gene) (x : Binary64) :
    decodeMigration? (fields (.migrate id gene x)) =
      some (if isFitness x then .ok (.migrate id gene x)
        else .error (malformed (.fitness x))) := by
  have hcount : toNat [UInt8.ofNat gene.length] = gene.length := by
    have := gene.length_le
    simp only [BigEndian.toNat, List.length_nil, Nat.mul_zero, Nat.shiftLeft_zero, Nat.add_zero,
      UInt8.toNat_ofNat']
    rw [Gene.length, Nat.mod_eq_of_lt (by simp only [maxGeneLength] at this; omega)]
  have hle : ¬ maxGeneLength < gene.length := Nat.not_lt.mpr gene.length_le
  rw [decodeMigration?, fields, List.append_assoc,
    takeNumber?_append _ (BigEndian.length_ofNat ..)]
  simp only [Option.bind_eq_bind, Option.bind_some, List.cons_append]
  rw [show ∀ rest, UInt8.ofNat gene.length :: rest = [UInt8.ofNat gene.length] ++ rest
      from fun _ => rfl, takeNumber?_append _ (List.length_singleton ..)]
  simp only [Option.bind_some, hcount, if_neg hle, decodeSlots?_padded, uint32_toNat_ofNat]

/-- Bytes that read as a fitness are the bytes of that fitness. -/
theorem ofNat_of_decodeFitness? {id : Nat} {gene : Gene} {bytes : List UInt8} {m : Message}
    (hlength : bytes.length = 8) (h : decodeFitness? id gene bytes = some (.ok m)) :
    ∃ x, isFitness x = true ∧ m = .migrate (UInt32.ofNat id) gene x ∧
      bytes = ofNat 8 x.bits.toNat := by
  have hbytes := ofNat_toNat_uint64 hlength
  rw [← hbytes, show ofNat 8 _ = ofNat 8 (Binary64.mk (UInt64.ofNat (toNat bytes))).bits.toNat
    from rfl, decodeFitness?_ofNat] at h
  split at h
  · rename_i hx
    cases h
    exact ⟨_, hx, rfl, hbytes.symm⟩
  · cases h

/-- Bytes that read as slots and a fitness are the slots of a gene and a fitness. -/
theorem padded_of_decodeSlots? {id count : Nat} {bytes : List UInt8} {m : Message}
    (hlength : bytes.length = maxGeneLength + 8) (hcount : count ≤ maxGeneLength)
    (h : decodeSlots? id count bytes = some (.ok m)) :
    ∃ gene x, gene.length = count ∧ isFitness x = true ∧
      m = .migrate (UInt32.ofNat id) gene x ∧ bytes = gene.padded ++ ofNat 8 x.bits.toNat := by
  have hslots : (bytes.take maxGeneLength).length = maxGeneLength := by
    rw [List.length_take]
    omega
  rw [decodeSlots?, takeBytes?_of_le (by omega)] at h
  simp only [Option.bind_eq_bind, Option.bind_some] at h
  split at h
  · cases h
  · rename_i hzero
    split at h
    · cases h
    · rename_i gene hgene
      obtain ⟨hlen, hpadded⟩ :=
        Gene.eq_padded_of_ofValues? hslots hcount hgene (by simpa using hzero)
      obtain ⟨x, hx, hm, hfitness⟩ := ofNat_of_decodeFitness? (by rw [List.length_drop]; omega) h
      refine ⟨gene, x, hlen, hx, hm, ?_⟩
      rw [← hpadded, ← hfitness, List.take_append_drop]

/-- Bytes that read as the fields of a migration are the fields of that migration. -/
theorem fields_of_decodeMigration? {bytes : List UInt8} {m : Message}
    (hlength : bytes.length = 4 + 1 + maxGeneLength + 8)
    (h : decodeMigration? bytes = some (.ok m)) :
    ∃ id gene x, m = .migrate id gene x ∧ isFitness x = true ∧ bytes = fields m := by
  have hid : (bytes.take 4).length = 4 := by
    rw [List.length_take]
    omega
  obtain ⟨count, slots, hrest⟩ : ∃ count slots, bytes.drop 4 = count :: slots := by
    cases hdrop : bytes.drop 4 with
    | nil =>
      have := congrArg List.length hdrop
      rw [List.length_drop, List.length_nil] at this
      omega
    | cons count slots => exact ⟨count, slots, rfl⟩
  have hslots : slots.length = maxGeneLength + 8 := by
    have := congrArg List.length hrest
    rw [List.length_drop, List.length_cons] at this
    omega
  rw [decodeMigration?, takeNumber?_of_le (by omega)] at h
  simp only [Option.bind_eq_bind, Option.bind_some, hrest] at h
  rw [show count :: slots = [count] ++ slots from rfl,
    takeNumber?_append _ (List.length_singleton ..)] at h
  simp only [Option.bind_some] at h
  have hvalue : toNat [count] = count.toNat := by
    simp [BigEndian.toNat]
  rw [hvalue] at h
  split at h
  · cases h
  · rename_i hcount
    obtain ⟨gene, x, hlen, hx, hm, hbytes⟩ := padded_of_decodeSlots? hslots (by omega) h
    refine ⟨_, gene, x, hm, hx, ?_⟩
    rw [hm, fields, ofNat_toNat_uint32 hid, hlen, UInt8.ofNat_toNat, List.append_assoc,
      List.cons_append, ← hbytes, ← hrest, List.take_append_drop]

-- ---------------------------------------------------------------------------
-- Bodies
-- ---------------------------------------------------------------------------

theorem expecting_eq_ok_iff {expected actual : Nat} {read : Reading} {m : Message} :
    expecting expected actual read = some (.ok m) ↔ actual = expected ∧ read = some (.ok m) := by
  rw [expecting]
  split
  · constructor
    · intro h
      cases h
    · rintro ⟨hlength, -⟩
      omega
  · split
    · constructor
      · intro h
        cases h
      · rintro ⟨hlength, -⟩
        omega
    · have hlength : actual = expected := by omega
      exact ⟨fun h => ⟨hlength, h⟩, And.right⟩

theorem length_body (m : Message) : (body m).length + tagLength = length m := by
  cases m with
  | hello id =>
    rw [body, fields, List.length_cons, BigEndian.length_ofNat, length, helloLength]
  | migrate id gene fitness =>
    rw [body, fields, length, migrateLength]
    simp only [List.length_cons, List.length_append, BigEndian.length_ofNat, Gene.length_padded]
    omega
  | ack status => rfl

/-- The body of a message reads back, up to the check of the fitness. -/
theorem decodeBody?_body (m : Message) :
    decodeBody? (length m) (body m) =
      match m with
      | .migrate id gene x =>
        some (if isFitness x then .ok (.migrate id gene x) else .error (malformed (.fitness x)))
      | m => some (.ok m) := by
  cases m with
  | hello id =>
    rw [body, decodeBody?, kind, if_pos rfl, length, expecting, if_neg (Nat.lt_irrefl _),
      if_neg (Nat.lt_irrefl _), decodeHello?, fields, ← List.append_nil (ofNat 4 id.toNat),
      takeNumber?_append [] (BigEndian.length_ofNat ..)]
    simp only [Option.bind_eq_bind, Option.bind_some, uint32_toNat_ofNat]
  | migrate id gene x =>
    rw [body, decodeBody?, kind, if_neg (by decide), if_pos rfl, length, expecting,
      if_neg (Nat.lt_irrefl _), if_neg (Nat.lt_irrefl _), decodeMigration?_fields]
  | ack status =>
    rw [body, decodeBody?, kind, if_neg (by decide), if_neg (by decide), if_pos rfl, length,
      expecting, if_neg (Nat.lt_irrefl _), if_neg (Nat.lt_irrefl _), decodeAck?, fields,
      takeNumber?_of_le (by simp)]
    simp [BigEndian.toNat]

/-- A body that reads as a message is the body of that message. -/
theorem body_of_decodeBody? {bytes : List UInt8} {m : Message}
    (h : decodeBody? (bytes.length + tagLength) bytes = some (.ok m)) :
    bytes = body m ∧ m.IsValid := by
  cases bytes with
  | nil => cases h
  | cons k bytes =>
    rw [decodeBody?] at h
    split at h
    · rename_i hk
      obtain ⟨hlength, hread⟩ := expecting_eq_ok_iff.mp h
      have hbytes : bytes.length = 4 := by
        simp only [List.length_cons, helloLength] at hlength
        omega
      rw [decodeHello?, takeNumber?_of_le (by omega), ← hbytes, List.take_length] at hread
      cases hread
      exact ⟨by rw [body, kind, fields, ofNat_toNat_uint32 hbytes, hk], trivial⟩
    · split at h
      · rename_i hk
        obtain ⟨hlength, hread⟩ := expecting_eq_ok_iff.mp h
        obtain ⟨id, gene, x, rfl, hx, hbytes⟩ := fields_of_decodeMigration?
          (by simp only [List.length_cons, migrateLength] at hlength; omega) hread
        exact ⟨by rw [body, kind, ← hbytes, hk], isFitness_iff.mp hx⟩
      · split at h
        · rename_i hk
          obtain ⟨hlength, hread⟩ := expecting_eq_ok_iff.mp h
          obtain ⟨status, rfl⟩ : ∃ status, bytes = [status] := by
            apply List.length_eq_one_iff.mp
            simp only [List.length_cons, ackLength] at hlength
            omega
          rw [decodeAck?, takeNumber?_of_le (by simp)] at hread
          cases hread
          refine ⟨?_, trivial⟩
          rw [body, kind, fields, hk]
          simp [BigEndian.toNat]
        · cases h

-- ---------------------------------------------------------------------------
-- Frames
-- ---------------------------------------------------------------------------

theorem decode_eq_iff {hash : KeyedHash} {frame : List UInt8} {r : Except WireError Message} :
    decode hash frame = r ↔ decode? hash frame = some r := by
  rw [decode, Option.eq_some_iff_get_eq]
  exact ⟨fun h => ⟨isSome_decode? hash frame, h⟩, fun ⟨_, h⟩ => h⟩

/-- A frame is authentic by construction, so its body is read. -/
theorem decode?_sealed (hash : KeyedHash) {bytes : List UInt8} (ne : bytes ≠ []) :
    decode? hash (sealed hash bytes) = decodeBody? (bytes.length + tagLength) bytes := by
  have hpos := List.length_pos_iff.mpr ne
  have hlength : (sealed hash bytes).length = bytes.length + tagLength := by
    rw [sealed, List.length_append, hash.length_tag]
  rw [decode?, hlength, if_neg (by omega), Nat.add_sub_cancel]
  simp only [sealed, List.take_left' rfl, List.drop_left' rfl, KeyedHash.verify, decide_true,
    if_true]

/-- A frame that reads as a message is an authentic body that does. -/
theorem sealed_of_decode {hash : KeyedHash} {frame : List UInt8} {m : Message}
    (h : decode hash frame = .ok m) :
    ∃ bytes, frame = sealed hash bytes ∧
      decodeBody? (bytes.length + tagLength) bytes = some (.ok m) := by
  rw [decode_eq_iff, decode?] at h
  split at h
  · cases h
  · rename_i hlong
    simp only at h
    split at h
    · rename_i hverify
      rw [KeyedHash.verify, decide_eq_true_eq] at hverify
      refine ⟨frame.take (frame.length - tagLength), ?_, ?_⟩
      · rw [sealed, ← hverify, List.take_append_drop]
      · rwa [List.length_take, Nat.min_eq_left (Nat.sub_le _ _), Nat.sub_add_cancel (by omega)]
    · cases h

/-- What becomes of the frame of each message. -/
theorem decode_encode_eq (hash : KeyedHash) (m : Message) :
    decode hash (encode hash m) =
      match m with
      | .migrate id gene x =>
        if isFitness x then .ok (.migrate id gene x) else .error (malformed (.fitness x))
      | m => .ok m := by
  have ne : body m ≠ [] := List.cons_ne_nil _ _
  rw [decode_eq_iff, encode, decode?_sealed hash ne, length_body, decodeBody?_body]
  cases m <;> rfl

theorem decode_encode (hash : KeyedHash) {m : Message} (valid : m.IsValid) :
    decode hash (encode hash m) = .ok m := by
  rw [decode_encode_eq]
  cases m with
  | hello id => rfl
  | migrate id gene x => exact if_pos (isFitness_iff.mpr valid)
  | ack status => rfl

/-- A byte string is accepted as a message exactly if it is the frame of that message and
the message is valid. -/
theorem decode_eq_ok_iff {hash : KeyedHash} {frame : List UInt8} {m : Message} :
    decode hash frame = .ok m ↔ frame = encode hash m ∧ m.IsValid := by
  constructor
  · intro h
    obtain ⟨bytes, rfl, hbody⟩ := sealed_of_decode h
    obtain ⟨rfl, valid⟩ := body_of_decodeBody? hbody
    exact ⟨rfl, valid⟩
  · rintro ⟨rfl, valid⟩
    exact decode_encode hash valid

-- ---------------------------------------------------------------------------
-- The layout, byte by byte
-- ---------------------------------------------------------------------------

/-- The bytes of an identity, most significant first. -/
def idBytes (id : NodeId) : List UInt8 :=
  [(id >>> 24).toUInt8, (id >>> 16).toUInt8, (id >>> 8).toUInt8, id.toUInt8]

/-- The bytes of a fitness, most significant first. -/
def fitnessBytes (x : Binary64) : List UInt8 :=
  [(x.bits >>> 56).toUInt8, (x.bits >>> 48).toUInt8, (x.bits >>> 40).toUInt8,
    (x.bits >>> 32).toUInt8, (x.bits >>> 24).toUInt8, (x.bits >>> 16).toUInt8,
    (x.bits >>> 8).toUInt8, x.bits.toUInt8]

/-- All bytes of a message's frame before the tag. -/
def layout : Message → List UInt8
  | .hello id => 0x01 :: idBytes id
  | .migrate id gene fitness =>
    0x02 :: idBytes id ++ UInt8.ofNat gene.length :: gene.padded ++ fitnessBytes fitness
  | .ack status => [0x03, status]

theorem ofNat_eq_idBytes (id : NodeId) : ofNat 4 id.toNat = idBytes id := by
  simp only [BigEndian.ofNat, idBytes, List.cons.injEq, and_true, ← UInt8.toNat_inj]
  simp

theorem ofNat_eq_fitnessBytes (x : Binary64) : ofNat 8 x.bits.toNat = fitnessBytes x := by
  simp only [BigEndian.ofNat, fitnessBytes, List.cons.injEq, and_true, ← UInt8.toNat_inj]
  simp

theorem body_eq_layout (m : Message) : body m = layout m := by
  cases m with
  | hello id => rw [body, kind, fields, ofNat_eq_idBytes, layout, helloKind]
  | migrate id gene x =>
    rw [body, kind, fields, ofNat_eq_idBytes, ofNat_eq_fitnessBytes, layout, migrateKind]
    rfl
  | ack status => rfl

-- ---------------------------------------------------------------------------
-- The format
-- ---------------------------------------------------------------------------

/-- **The frame format is exact and canonical.** Frames have the stated layout; a byte
string is accepted as a message exactly if it is the frame of that message and the
message is valid; so reading undoes writing on valid messages, and writing undoes
reading on accepted frames. The frame of a migration that is not valid is refused as
malformed, with its fitness in the text. Valid fitnesses are the bit patterns up to that
of 1, and the negative zero. Reading one field after the other, where a read past the
end of the buffer gives nothing, always gives a result. -/
theorem frame_format_exact (hash : KeyedHash) :
    (∀ m, encode hash m = layout m ++ hash.tag (layout m)) ∧
    (∀ frame m, decode hash frame = .ok m ↔ frame = encode hash m ∧ m.IsValid) ∧
    (∀ m, m.IsValid → decode hash (encode hash m) = .ok m) ∧
    (∀ frame m, decode hash frame = .ok m → encode hash m = frame) ∧
    (∀ id gene x, ¬ (Message.migrate id gene x).IsValid →
      decode hash (encode hash (.migrate id gene x)) = .error (malformed (.fitness x))) ∧
    (∀ id gene x, (Message.migrate id gene x).IsValid ↔
      x.bits ≤ Binary64.one.bits ∨ x.bits = 0x8000000000000000) ∧
    (∀ frame, decode? hash frame = some (decode hash frame)) := by
  refine ⟨fun m => ?_, fun _ _ => decode_eq_ok_iff, fun _ => decode_encode hash,
    fun frame m h => (decode_eq_ok_iff.mp h).1.symm, fun id gene x h => ?_,
    fun _ _ x => Binary64.within_zero_one_iff x, fun _ => decode_eq_iff.mp rfl⟩
  · rw [encode, sealed, body_eq_layout]
  · rw [decode_encode_eq]
    exact if_neg fun hx => h (isFitness_iff.mp hx)

end Frame

end AffineSwarm
