/-
The bytes in a listing and in a dump, read back from the text. A line of either
starts with an address and goes on with a column of bytes; the two differ in
what stands before the address and behind the column (`dumpRow?`, `listingRow?`).

Rows that tile an image have its bytes in order, each at the number of bytes
before it (`Tile`). The dump does so in sixteens (`tile_dumpRows`), the listing in
its entries (`tile_rows`).
-/
import Chip8.Proofs.Listing.Partition

namespace Chip8.Listing

/-! ## Reading a line -/

/-- A line read back: the address at its front, and the bytes in its column. -/
structure Row where
  address : Nat
  bytes : List Byte
deriving DecidableEq, Repr

/-- The byte that two digits stand for. -/
def readByte? : List Char → Option Byte
  | [high, low] => (Numeral.readHex? [high, low]).map (BitVec.ofNat 8)
  | _ => none

/-- The bytes between the blanks of a column. -/
def readColumn? (cs : List Char) : Option (List Byte) :=
  ((cs.splitOn ' ').filter (· ≠ [])).mapM readByte?

/-- An address, and behind a colon and a blank the column that a line has there. -/
def readRow? (column : List Char → List Char) (cs : List Char) : Option Row :=
  match cs.dropWhile (· ≠ ':') with
  | ':' :: ' ' :: rest => do
    let address ← Numeral.readHex? (cs.takeWhile (· ≠ ':'))
    let bytes ← readColumn? (column rest)
    return { address, bytes }
  | _ => none

/-- A line of a dump, which its column ends. -/
def dumpRow? (line : String) : Option Row :=
  match line.toList with
  | ';' :: ' ' :: '$' :: cs => readRow? id cs
  | _ => none

/-- A line of a listing, whose column is five characters wide. -/
def listingRow? (line : String) : Option Row :=
  match line.toList with
  | '$' :: cs => readRow? (List.take 5) cs
  | _ => none

/-! ## Reading back what is written -/

theorem readByte?_hex (b : Byte) : readByte? (Numeral.hex 2 b.toNat).toList = some b := by
  have hlength : (Numeral.characters 16 2 b.toNat).length = 2 :=
    Numeral.length_characters (by omega) (by omega) b.isLt
  obtain ⟨high, low, hcs⟩ := List.length_eq_two.1 hlength
  have hread := Numeral.readHex?_characters (by decide : 0 < 2) b.toNat
  rw [hcs] at hread
  rw [Numeral.hex, Numeral.toList_render, hcs]
  simp [readByte?, hread]

theorem mapM_readByte? (bytes : List Byte) :
    (bytes.map fun b => (Numeral.hex 2 b.toNat).toList).mapM readByte? = some bytes := by
  induction bytes with
  | nil => rfl
  | cons b bytes ih => simp [readByte?_hex, ih]

/-- The parts of a text between blanks, which blanks behind it do not change. -/
theorem filter_splitOn_blanks (cs : List Char) (blanks : Nat) :
    ((cs ++ List.replicate blanks ' ').splitOn ' ').filter (· ≠ []) =
      (cs.splitOn ' ').filter (· ≠ []) := by
  induction blanks generalizing cs with
  | zero => rw [List.replicate_zero, List.append_nil]
  | succ blanks ih =>
    have hblanks := ih []
    rw [List.nil_append, List.splitOn_nil] at hblanks
    rw [List.replicate_succ, List.splitOn_append_cons_self, List.filter_append, hblanks]
    simp

theorem readColumn?_byteColumn {bytes : List Byte} (hne : bytes ≠ []) (blanks : Nat) :
    readColumn? ((Entry.byteColumn bytes).toList ++ List.replicate blanks ' ') = some bytes := by
  have hparts : ∀ part ∈ bytes.map fun b => (Numeral.hex 2 b.toNat).toList, ' ' ∉ part ∧ part ≠ [] := by
    refine List.forall_mem_map.2 fun b _ => ⟨?_, ?_⟩
    · exact Numeral.not_mem_hex (by decide) (by decide) 2 b.toNat
    · rw [Numeral.hex, Numeral.toList_render]
      exact Numeral.characters_ne_nil (by omega)
  have hsplit : (Entry.byteColumn bytes).toList.splitOn ' ' =
      bytes.map fun b => (Numeral.hex 2 b.toNat).toList := by
    rw [Entry.byteColumn, String.toList_intercalate, List.map_map]
    exact List.splitOn_intercalate ' ' (fun part h => (hparts part h).1) (by simpa using hne)
  have hfilter : (bytes.map fun b => (Numeral.hex 2 b.toNat).toList).filter (· ≠ []) =
      bytes.map fun b => (Numeral.hex 2 b.toNat).toList :=
    List.filter_eq_self.2 fun part h => by simpa using (hparts part h).2
  rw [readColumn?, filter_splitOn_blanks, hsplit, hfilter, mapM_readByte?]

/-- An address may outgrow its three digits: it ends at the colon. -/
theorem readRow?_eq {column : List Char → List Char} {rest : List Char} {bytes : List Byte}
    (hcolumn : readColumn? (column rest) = some bytes) (address : Nat) :
    readRow? column (Numeral.characters 16 3 address ++ ':' :: ' ' :: rest) =
      some ⟨address, bytes⟩ := by
  have hdigits : ∀ c ∈ Numeral.characters 16 3 address, decide (c ≠ ':') = true := by
    intro c hc
    have hdigit := Numeral.isDigit_of_mem_characters (by omega) (Nat.le_refl 16) 3 address hc
    refine decide_eq_true fun h => ?_
    rw [h] at hdigit
    exact absurd hdigit (by decide)
  have hread := Numeral.readHex?_characters (by decide : 0 < 3) address
  have hbehind : (Numeral.characters 16 3 address ++ ':' :: ' ' :: rest).dropWhile (· ≠ ':') =
      ':' :: ' ' :: rest := by
    rw [List.dropWhile_append_of_pos hdigits]
    rfl
  have hbefore : (Numeral.characters 16 3 address ++ ':' :: ' ' :: rest).takeWhile (· ≠ ':') =
      Numeral.characters 16 3 address := by
    rw [List.takeWhile_append_of_pos hdigits]
    exact List.append_nil _
  rw [readRow?, hbehind, hbefore]
  simp [hread, hcolumn]

/-! ## The lines of a dump -/

/-- The line of a group. -/
theorem dumpRow?_eq (address : Nat) {group : List Byte} (hne : group ≠ []) :
    dumpRow? ("; $" ++ Numeral.hex 3 address ++ ": " ++ Entry.byteColumn group) =
      some ⟨address, group⟩ := by
  have hcolumn := readColumn?_byteColumn hne 0
  rw [List.replicate_zero, List.append_nil] at hcolumn
  have hline : ("; $" ++ Numeral.hex 3 address ++ ": " ++ Entry.byteColumn group).toList =
      ';' :: ' ' :: '$' :: (Numeral.characters 16 3 address ++
        ':' :: ' ' :: (Entry.byteColumn group).toList) := by
    simp [Numeral.hex]
  rw [dumpRow?, hline]
  exact readRow?_eq hcolumn address

/-! ## The lines of a listing -/

theorem length_byteColumn_le (e : Entry) : (Entry.byteColumn e.bytes).length ≤ 5 := by
  have hbyte : ∀ b : Byte, (Numeral.hex 2 b.toNat).length = 2 := fun b =>
    Numeral.length_hex (by omega) b.isLt
  obtain ⟨address, content⟩ := e
  cases content with
  | word hi lo =>
    have hcolumn : Entry.byteColumn [hi, lo] =
        Numeral.hex 2 hi.toNat ++ " " ++ Numeral.hex 2 lo.toNat := rfl
    have hblank : " ".length = 1 := rfl
    have hlength : (Entry.byteColumn [hi, lo]).length = 5 := by
      rw [hcolumn, String.length_append, String.length_append, hbyte, hbyte, hblank]
    exact Nat.le_of_eq hlength
  | trailing b =>
    have hlength : (Entry.byteColumn [b]).length = 2 := hbyte b
    exact Nat.le_trans (Nat.le_of_eq hlength) (by decide)

/-- The first five characters of a padded column are the column. -/
theorem take_padRight {column : String} (h : column.length ≤ 5) (cs : List Char) :
    ((Numeral.padRight 5 column).toList ++ cs).take 5 =
      column.toList ++ List.replicate (5 - column.length) ' ' := by
  have hcs : (Numeral.padRight 5 column).toList =
      column.toList ++ List.replicate (5 - column.length) ' ' := by
    rw [Numeral.padRight, String.toList_append, String.toList_ofList]
  have hlength : (Numeral.padRight 5 column).toList.length = 5 := by
    rw [hcs, List.length_append, String.length_toList, List.length_replicate]
    omega
  rw [← hcs, List.take_append_of_le_length (Nat.le_of_eq hlength.symm)]
  exact List.take_of_length_le (Nat.le_of_eq hlength)

theorem listingRow?_line {e : Entry} {address : Nat} (haddress : e.address = address) :
    listingRow? e.line = some ⟨address, e.bytes⟩ := by
  have hne : e.bytes ≠ [] := List.length_pos_iff.1 e.size_pos
  obtain ⟨behind, hline⟩ : ∃ behind, e.line.toList = '$' :: (Numeral.characters 16 3 address ++
      ':' :: ' ' :: ((Numeral.padRight 5 (Entry.byteColumn e.bytes)).toList ++ behind)) :=
    ⟨_, by simp [Entry.line, Entry.addressText, Numeral.hex, haddress]; rfl⟩
  have hcolumn := readColumn?_byteColumn hne (5 - (Entry.byteColumn e.bytes).length)
  rw [← take_padRight (length_byteColumn_le e) behind] at hcolumn
  rw [listingRow?, hline]
  exact readRow?_eq hcolumn address

/-! ## Tiles -/

/-- Rows have an image's bytes in order, each at the number of bytes before it. -/
structure Tile (start : Nat) (image : List Byte) (rows : List Row) : Prop where
  bytes : rows.flatMap Row.bytes = image
  address : ∀ before row after, rows = before ++ row :: after →
    row.address = start + (before.flatMap Row.bytes).length

/-- Rows have sixteen bytes each, the last one what is left. -/
def InSixteens (start : Nat) (image : List Byte) (rows : List Row) : Prop :=
  ∀ k row, rows[k]? = some row → row.address = start + 16 * k ∧
    row.bytes.length = (if k + 1 < rows.length then 16 else image.length - 16 * k) ∧
    1 ≤ row.bytes.length ∧ row.bytes.length ≤ 16

/-! ## The dump -/

/-- The bytes of a group. -/
def chunk (image : List Byte) (k : Nat) : List Byte := (image.drop (16 * k)).take 16

theorem length_chunk (image : List Byte) (k : Nat) :
    (chunk image k).length = min 16 (image.length - 16 * k) := by
  rw [chunk, List.length_take, List.length_drop]

/-- Groups one after another are the image as far as they go. -/
theorem flatMap_chunk (image : List Byte) (n : Nat) :
    (List.range n).flatMap (chunk image) = image.take (16 * n) := by
  induction n with
  | zero => rfl
  | succ n ih =>
    rw [List.range_succ, List.flatMap_append, ih, Nat.mul_succ, List.take_add]
    simp [chunk]

/-- The rows of a dump. -/
def dumpRows (start : Nat) (image : List Byte) : List Row :=
  (List.range ((image.length + 15) / 16)).map fun k => ⟨start + 16 * k, chunk image k⟩

theorem dumpLines_eq (start : Nat) (image : List Byte) : dumpLines image start =
    (List.range ((image.length + 15) / 16)).map fun k =>
      "; $" ++ Numeral.hex 3 (start + 16 * k : Nat) ++ ": " ++ Entry.byteColumn (chunk image k) := by
  refine List.ext_getElem (by simp [dumpLines, groups]) fun k hk hk' => ?_
  simp [dumpLines, groups, chunk]

theorem map_dumpRow? (start : Nat) (image : List Byte) :
    (dumpLines image start).map dumpRow? = (dumpRows start image).map some := by
  rw [dumpLines_eq, dumpRows, List.map_map, List.map_map]
  refine List.map_congr_left fun k hk => ?_
  have hne : chunk image k ≠ [] := by
    have hk := List.mem_range.1 hk
    rw [← List.length_pos_iff, length_chunk]
    omega
  rw [Function.comp_apply, Function.comp_apply, dumpRow?_eq (start + 16 * k) hne]

theorem flatMap_take_dumpRows (start : Nat) (image : List Byte) {n : Nat}
    (hn : n ≤ (image.length + 15) / 16) :
    ((dumpRows start image).take n).flatMap Row.bytes = image.take (16 * n) := by
  rw [dumpRows, ← List.map_take, List.take_range, Nat.min_eq_left hn, List.flatMap_map, flatMap_chunk]

theorem getElem?_dumpRows {start : Nat} {image : List Byte} {k : Nat} {row : Row}
    (h : (dumpRows start image)[k]? = some row) :
    row = ⟨start + 16 * k, chunk image k⟩ ∧ 16 * k < image.length := by
  rw [dumpRows, List.getElem?_map, Option.map_eq_some_iff] at h
  obtain ⟨j, hj, rfl⟩ := h
  obtain ⟨hk, rfl⟩ := List.getElem?_eq_some_iff.1 hj
  rw [List.length_range] at hk
  rw [List.getElem_range]
  exact ⟨rfl, by omega⟩

theorem tile_dumpRows (start : Nat) (image : List Byte) : Tile start image (dumpRows start image) where
  bytes := by
    have hall := flatMap_take_dumpRows start image (Nat.le_refl _)
    have hlength : (dumpRows start image).length = (image.length + 15) / 16 := by simp [dumpRows]
    rwa [← hlength, List.take_length, List.take_of_length_le (by omega)] at hall
  address before row after h := by
    have hrow : (dumpRows start image)[before.length]? = some row := by simp [h]
    have hlength : before.length < (dumpRows start image).length := by simp [h]
    have hbefore : (dumpRows start image).take before.length = before := by simp [h]
    obtain ⟨rfl, hin⟩ := getElem?_dumpRows hrow
    rw [dumpRows, List.length_map, List.length_range] at hlength
    have hbytes := flatMap_take_dumpRows start image (Nat.le_of_lt hlength)
    rw [hbefore] at hbytes
    rw [hbytes, List.length_take, Nat.min_eq_left (Nat.le_of_lt hin)]

theorem inSixteens_dumpRows (start : Nat) (image : List Byte) :
    InSixteens start image (dumpRows start image) := by
  intro k row h
  obtain ⟨rfl, hin⟩ := getElem?_dumpRows h
  have hlength : (dumpRows start image).length = (image.length + 15) / 16 := by simp [dumpRows]
  simp only [length_chunk, hlength]
  refine ⟨trivial, ?_, by omega, by omega⟩
  split <;> omega

/-! ## The listing -/

/-- What a listing of at most `count` entries shows of an image. -/
def listed (image : List Byte) : Option Int → List Byte
  | none => image
  | some count => image.take (min (2 * count.toNat) image.length)

/-- The row of an entry. -/
def Entry.row (e : Entry) : Row := ⟨e.address.toNat, e.bytes⟩

theorem flatMap_bytes_take (start : Int) (image : List Byte) (n : Nat) :
    ((entries start image).take n).flatMap Entry.bytes = image.take (2 * n) := by
  induction start, image using entries.induct generalizing n with
  | case1 start => simp [entries]
  | case2 start b => cases n <;> simp [entries, Entry.bytes, Content.bytes, Nat.mul_succ]
  | case3 start hi lo rest ih =>
    cases n with
    | zero => simp
    | succ n => simp [entries, Entry.bytes, Content.bytes, Nat.mul_succ, ih]

theorem flatMap_bytes_disassemble (image : List Byte) (start : Int) (count : Option Int) :
    (disassemble image start count).flatMap Entry.bytes = listed image count := by
  cases count with
  | none => exact flatMap_bytes_entries start image
  | some count => rw [disassemble, flatMap_bytes_take, listed, List.take_eq_take_min]

/-- Every entry stands at the number of bytes before it. -/
theorem address_of_disassemble {image : List Byte} {start : Int} {count : Option Int}
    {before after : List Entry} {e : Entry}
    (h : disassemble image start count = before ++ e :: after) :
    e.address = start + (before.flatMap Entry.bytes).length := by
  cases count with
  | none => exact (address_size_of_entries h).1
  | some count =>
    have hentries : entries start image =
        before ++ e :: (after ++ (entries start image).drop count.toNat) := by
      rw [← List.cons_append, ← List.append_assoc, ← h, disassemble, List.take_append_drop]
    exact (address_size_of_entries hentries).1

theorem map_listingRow? (image : List Byte) (start : Nat) (count : Option Int) :
    ((disassemble image start count).map Entry.line).map listingRow? =
      ((disassemble image start count).map Entry.row).map some := by
  rw [List.map_map, List.map_map]
  refine List.map_congr_left fun e he => ?_
  obtain ⟨before, after, h⟩ := List.append_of_mem he
  have haddress : e.address = (e.address.toNat : Int) := by
    have hbefore := address_of_disassemble h
    omega
  rw [Function.comp_apply, Function.comp_apply, listingRow?_line haddress]
  rfl

theorem tile_rows (image : List Byte) (start : Nat) (count : Option Int) :
    Tile start (listed image count) ((disassemble image start count).map Entry.row) where
  bytes := by rw [List.flatMap_map, ← flatMap_bytes_disassemble image start count]; rfl
  address before row after h := by
    obtain ⟨es, fs, hsplit, rfl, hrest⟩ := List.map_eq_append_iff.1 h
    obtain ⟨e, fs, rfl, rfl, rfl⟩ := List.map_eq_cons_iff.1 hrest
    have haddress := address_of_disassemble hsplit
    have hbytes : (es.map Entry.row).flatMap Row.bytes = es.flatMap Entry.bytes := List.flatMap_map ..
    change e.address.toNat = _
    rw [hbytes]
    omega

end Chip8.Listing
