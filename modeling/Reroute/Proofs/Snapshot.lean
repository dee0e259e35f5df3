import Mathlib.Data.List.Forall2
import Mathlib.Data.Option.Basic
import Reroute.Snapshot.Standard

/-!
# Snapshots are read back

What the vault needs of a format is put into one condition on a path and a text: what was packed and
written is read back as it was.

In the standard format a text in a frame and a snapshot in a blob are read back as long as their
lengths fit the fields that hold them: eight bytes for the text of a frame, four for the path and
the frame of a snapshot. So every text shorter than half a gigabyte meets the condition.

## Main definitions

* `Snapshot.ofPristine` — the snapshot of a text, with any fingerprint of what replaced it
* `Snapshot.Packable` — the snapshots of a text are read back, and the text from them

## Main results

* `Frame.decode?_encode` — a text is read back from its frame
* `Snapshot.ofBlob?_toBlob` — a snapshot is read back from its blob
* `Snapshot.packable_of_length_lt` — short texts can be packed in the standard format
-/

namespace Reroute

theorem Text.block?_of_length {size : Nat} {t : Text} (h : t.length = size) (rest : Text) :
    block? size (t ++ rest) = some (t, rest) :=
  h ▸ block?_append t rest

/-! ### Frames -/

namespace Frame

variable {t text rest : Text} {window : Nat}

/-- A plain block is read back. -/
theorem readBlock_writeBlock (hlimit : text.length ≤ windowLimit) (hwindow : text.length ≤ window)
    (isLast : Bool) :
    readBlock window (writeBlock text isLast ++ rest) = some ((text, isLast), rest) := by
  have hfits : windowLimit * 8 + 1 < Nat.pow 256 3 := by decide
  have hsize : text.length ≤ blockLimit := Nat.le_trans hlimit (by decide)
  cases isLast with
  | true =>
    have hword : Text.ofLittleEndian (Text.littleEndian 3 (text.length * 8 + 1)) =
        text.length * 8 + 1 :=
      Text.ofLittleEndian_littleEndian (by omega)
    have hkind : (text.length * 8 + 1) / 2 % 4 = 0 := by omega
    have hlength : (text.length * 8 + 1) / 8 = text.length := by omega
    have hodd : (text.length * 8 + 1) % 2 = 1 := by omega
    simp [readBlock, writeBlock, Text.block?_of_length, hword, hkind, hlength, hodd, hwindow, hsize]
  | false =>
    have hword : Text.ofLittleEndian (Text.littleEndian 3 (text.length * 8)) = text.length * 8 :=
      Text.ofLittleEndian_littleEndian (by omega)
    have hkind : text.length * 8 / 2 % 4 = 0 := by omega
    have heven : text.length * 8 % 2 = 0 := by omega
    simp [readBlock, writeBlock, Text.block?_of_length, hword, hkind, heven, hwindow, hsize]

/-- The blocks of a text are read back, if as many blocks are allowed as they have bytes. -/
theorem readBlocks_writeBlocks {count : Nat} (hwindow : windowLimit ≤ window)
    (hcount : (writeBlocks t).length ≤ count) :
    readBlocks window count (writeBlocks t ++ rest) = some (t, rest) := by
  induction t using writeBlocks.induct generalizing count with
  | case1 t hshort =>
    rw [writeBlocks, dif_pos hshort] at hcount ⊢
    obtain ⟨n, rfl⟩ : ∃ n, count = n + 1 := ⟨count - 1, by simp [writeBlock] at hcount; omega⟩
    simp [readBlocks, readBlock_writeBlock hshort (Nat.le_trans hshort hwindow)]
  | case2 t hlong ih =>
    rw [writeBlocks, dif_neg hlong] at hcount ⊢
    have htake : (t.take windowLimit).length ≤ windowLimit := List.length_take_le _ t
    simp only [List.length_append, writeBlock, Text.length_littleEndian] at hcount
    obtain ⟨n, rfl⟩ : ∃ n, count = n + 1 := ⟨count - 1, by omega⟩
    have hrest : readBlocks window n (writeBlocks (t.drop windowLimit) ++ rest) =
        some (t.drop windowLimit, rest) :=
      ih (by omega)
    rw [List.append_assoc]
    simp [readBlocks, readBlock_writeBlock htake (Nat.le_trans htake hwindow), hrest]

/-- The header of a written frame: the window is large enough for all blocks. -/
theorem readHeader_written (hlength : t.length < Nat.pow 256 8) :
    readHeader (0xe0 :: (Text.littleEndian 8 t.length ++ rest)) =
      some (⟨max t.length windowLimit, some t.length, false⟩, rest) := by
  have hfirst : ∀ x : Text, Text.block? 1 (0xe0 :: x) = some ([0xe0], x) :=
    Text.block?_of_length (t := [0xe0]) rfl
  have hnone : ∀ x : Text, Text.block? 0 x = some ([], x) := Text.block?_of_length (t := []) rfl
  have hsize := Text.block?_of_length (Text.length_littleEndian 8 t.length) rest
  simp [readHeader, hfirst, hnone, hsize, Text.ofLittleEndian_littleEndian hlength,
    Text.ofLittleEndian]

/-- A frame that ends the text is read alone. -/
theorem readFrames_magic (count : Nat) {x : Text} (h : readFrame x = some (t, [])) :
    readFrames (count + 1) (magic ++ x) = some t := by
  have hmagic : Text.block? 4 (magic ++ x) = some (magic, x) := Text.block?_append magic x
  have hend : readFrames count [] = some [] := by cases count <;> rfl
  rw [magic, List.cons_append] at hmagic ⊢
  rw [readFrames, hmagic]
  simp [magic, h, hend]

/-- A text is read back from its frame. -/
theorem decode?_encode (hlength : t.length < Nat.pow 256 8) : decode? (encode t) = some t := by
  have hblocks : readBlocks (max t.length windowLimit) (writeBlocks t).length (writeBlocks t) =
      some (t, []) := by
    rw [← List.append_nil (writeBlocks t)]
    exact readBlocks_writeBlocks (Nat.le_max_right _ _) (by simp)
  have hframe : readFrame (0xe0 :: (Text.littleEndian 8 t.length ++ writeBlocks t)) =
      some (t, []) := by
    simp [readFrame, readHeader_written hlength, hblocks]
  exact readFrames_magic _ hframe

/-- A frame is not much longer than its text. -/
theorem length_writeBlocks_le (t : Text) : (writeBlocks t).length ≤ 4 * t.length + 3 := by
  induction t using writeBlocks.induct with
  | case1 t hshort =>
    rw [writeBlocks, dif_pos hshort]
    simp [writeBlock]
    omega
  | case2 t hlong ih =>
    rw [writeBlocks, dif_neg hlong]
    simp only [writeBlock, List.length_append, Text.length_littleEndian, List.length_take,
      List.length_drop] at ih ⊢
    have : 0 < windowLimit := by decide
    omega

end Frame

/-! ### MessagePack -/

namespace MessagePack

variable {t rest : Text} {depth : Nat}

private theorem readNat_bigEndian {width n : Nat} (h : n < Nat.pow 256 width) :
    readNat width (Text.bigEndian width n ++ rest) = some (n, rest) := by
  rw [readNat, Text.block?_of_length (Text.length_bigEndian width n)]
  simp [Text.ofBigEndian_bigEndian h]

private theorem readBlock_bigEndian {width : Nat} (h : t.length < Nat.pow 256 width) :
    readBlock width (Text.bigEndian width t.length ++ (t ++ rest)) = some (t, rest) := by
  rw [readBlock, readNat_bigEndian h]
  exact Text.block?_append t rest

theorem readWithin_writeText (h : t.length < Nat.pow 256 4) :
    readWithin (depth + 1) (writeText t ++ rest) = some (.text t, rest) := by
  simp [writeText, readWithin, readRest, readBlock_bigEndian h]

theorem readWithin_writeBytes (h : t.length < Nat.pow 256 4) :
    readWithin (depth + 1) (writeBytes t ++ rest) = some (.bytes t, rest) := by
  simp [writeBytes, readWithin, readRest, readBlock_bigEndian h]

theorem readWithin_writeWord (w : UInt64) :
    readWithin (depth + 1) (writeWord w ++ rest) = some (.int w.toNat, rest) := by
  have h : w.toNat < Nat.pow 256 8 := w.toNat_lt
  simp [writeWord, readWithin, readRest, readNat_bigEndian h]

theorem readWithin_writeName (h : t.length < 32) :
    readWithin (depth + 1) (writeName t ++ rest) = some (.text t, rest) := by
  have hcode : (0xa0 + t.length).toUInt8.toNat = 0xa0 + t.length := by
    simp
    omega
  rw [writeName, List.cons_append, readWithin, readRest]
  simp only [hcode]
  rw [if_neg (by omega), if_neg (by omega), if_neg (by omega), if_pos (by omega),
    Nat.add_sub_cancel_left, Text.block?_append]
  rfl

/-- The entries of a written map are read back one by one. -/
theorem readMany_entries {read : Text → Option (Value × Text)} {entries : List (Text × Text)}
    {values : List (Value × Value)}
    (h : List.Forall₂ (fun e v => ∀ rest, readPair read (writeName e.1 ++ (e.2 ++ rest)) =
      some (v, rest)) entries values) :
    readMany (readPair read) entries.length
        (entries.flatMap (fun e => writeName e.1 ++ e.2) ++ rest) = some (values, rest) := by
  induction h with
  | nil => rfl
  | cons hhead _ ih =>
    rw [List.flatMap_cons, List.append_assoc, List.append_assoc, List.length_cons, readMany,
      hhead]
    simp [ih]

/-- A written map is read back. -/
theorem read?_writeMap {entries : List (Text × Text)} {values : List (Value × Value)}
    (hne : entries ≠ []) (hcount : entries.length < 16)
    (h : ∀ depth, List.Forall₂ (fun e v => ∀ rest,
      readPair (readWithin (depth + 1)) (writeName e.1 ++ (e.2 ++ rest)) = some (v, rest))
      entries values) :
    Value.read? (writeMap entries) = some (.map values, []) := by
  have hcode : (0x80 + entries.length).toUInt8.toNat = 0x80 + entries.length := by
    simp
    omega
  -- the first name takes a byte, so that there is a level left for the entries
  obtain ⟨depth, hdepth⟩ : ∃ depth,
      (entries.flatMap fun e => writeName e.1 ++ e.2).length = depth + 1 := by
    obtain ⟨e, es, rfl⟩ := List.exists_cons_of_ne_nil hne
    exact ⟨_, by rw [List.flatMap_cons, writeName, List.cons_append, List.cons_append]; rfl⟩
  have hentries : readMany (readPair (readWithin (depth + 1))) entries.length
      (entries.flatMap fun e => writeName e.1 ++ e.2) = some (values, []) := by
    rw [← List.append_nil (entries.flatMap _)]
    exact readMany_entries (h depth)
  rw [Value.read?, writeMap, List.length_cons, hdepth, readWithin, readRest]
  simp only [hcode]
  rw [if_neg (by omega), if_pos (by omega), Nat.add_sub_cancel_left, hentries]
  rfl

end MessagePack

/-! ### Snapshots -/

namespace Snapshot

open MessagePack

private theorem ofInt_toNat (w : UInt64) : UInt64.ofInt (w.toNat : Int) = w := by
  have hlt := w.toNat_lt
  have hmod : ((w.toNat : Int) % 2 ^ 64).toNat = w.toNat := by omega
  rw [UInt64.ofInt, hmod, UInt64.ofNat_toNat]

private theorem readPair_of {read : Text → Option (Value × Text)} {name value : Text}
    {n v : Value} (hname : ∀ rest, read (writeName name ++ rest) = some (n, rest))
    (hvalue : ∀ rest, read (value ++ rest) = some (v, rest)) (rest : Text) :
    readPair read (writeName name ++ (value ++ rest)) = some ((n, v), rest) := by
  simp [readPair, hname, hvalue]

/-- A snapshot is read back from its blob. -/
theorem ofBlob?_toBlob {s : Snapshot} (hpath : s.path.length < Nat.pow 256 4)
    (hframe : s.frame.length < Nat.pow 256 4) : ofBlob? s.toBlob = some s := by
  have hread : Value.read? s.toBlob = some (.map [(.text "p", .text s.path),
      (.text "o", .bytes s.frame), (.text "b", .int s.before.value.toNat),
      (.text "a", .int s.after.value.toNat)], []) := by
    refine read?_writeMap (by simp) (by simp) fun depth => ?_
    have hname : ∀ name : Text, name.length < 32 → ∀ rest,
        readWithin (depth + 1) (writeName name ++ rest) = some (.text name, rest) :=
      fun _ h _ => readWithin_writeName h
    refine .cons ?_ (.cons ?_ (.cons ?_ (.cons ?_ .nil)))
    · exact readPair_of (hname "p" (by decide)) fun _ => readWithin_writeText hpath
    · exact readPair_of (hname "o" (by decide)) fun _ => readWithin_writeBytes hframe
    · exact readPair_of (hname "b" (by decide)) fun _ => readWithin_writeWord _
    · exact readPair_of (hname "a" (by decide)) fun _ => readWithin_writeWord _
  have ho : Text.ofString "o" ≠ Text.ofString "p" := by decide
  have hb : Text.ofString "b" ≠ Text.ofString "p" ∧ Text.ofString "b" ≠ Text.ofString "o" := by
    decide
  have ha : Text.ofString "a" ≠ Text.ofString "p" ∧ Text.ofString "a" ≠ Text.ofString "o" ∧
      Text.ofString "a" ≠ Text.ofString "b" := by
    decide
  rw [ofBlob?, hread]
  simp [ofValue?, withFields, withField, asText, asFingerprint, ofInt_toNat, ho, hb, ha]

section Format

variable [Format]

/-- The snapshot of a text, with the fingerprint of what was last put into its place. -/
def ofPristine (path pristine : Text) (after : Fingerprint) : Snapshot :=
  ⟨path, Format.pack pristine, .ofText pristine, after⟩

theorem take_eq (path pristine patched : Text) :
    take path pristine patched = ofPristine path pristine (.ofText patched) := rfl

/-- Packing loses nothing: the snapshots of a text are read back from their blobs, and the text from
its frame. -/
structure Packable (path pristine : Text) : Prop where
  blob_read : ∀ after, decode? (ofPristine path pristine after).encode =
    some (ofPristine path pristine after)
  frame_read : Format.unpack? (Format.pack pristine) = some pristine

end Format

/-- Short texts can be packed in the standard format. -/
theorem packable_of_length_lt {path pristine : Text} (hpath : path.length < Nat.pow 2 32)
    (hpristine : pristine.length < Nat.pow 2 29) : Packable path pristine := by
  have hframe : (Frame.encode pristine).length < Nat.pow 256 4 := by
    have hblocks := Frame.length_writeBlocks_le pristine
    have hlimit : 4 * Nat.pow 2 29 + 16 < Nat.pow 256 4 := by decide
    simp only [Frame.encode, Frame.magic, List.length_append, List.length_cons, List.length_nil,
      Text.length_littleEndian]
    omega
  have hsize : pristine.length < Nat.pow 256 8 := Nat.lt_trans hpristine (by decide)
  refine ⟨fun after => ?_, Frame.decode?_encode hsize⟩
  rw [decode?_eq, encode_eq]
  exact ofBlob?_toBlob hpath hframe

end Snapshot

end Reroute
