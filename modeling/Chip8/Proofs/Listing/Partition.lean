/-
A listing divides its image. A walk through the image reads an entry, goes on by
as many bytes as the entry has, and comes to the end without a gap, an overlap
or a failure, whatever the words are: each entry but a last odd byte has two
bytes, so what is left of the image is what the listing is of from there on.

An entry is no more than its own bytes and its address.
-/
import Chip8.Proofs.Listing

namespace Chip8

/-- A part of a list between two positions counted from the front. -/
theorem Window.cut_natCast {α : Type} {xs : List α} {i j : Nat} (hij : i ≤ j) (hj : j ≤ xs.length) :
    cut xs i j = (xs.drop i).take (j - i) := by
  have hplace : ∀ k : Nat, k ≤ xs.length → place xs.length k = k := by
    intro k hk
    have hpos : ¬ (k : Int) < 0 := by omega
    rw [place, if_neg hpos, Int.toNat_natCast, Nat.min_eq_left hk]
  rw [cut, hplace i (Nat.le_trans hij hj), hplace j hj, List.drop_take]

namespace Listing

/-! ## Single entries -/

namespace Entry

theorem size_pos (e : Entry) : 0 < e.size := by
  unfold size bytes
  cases e.content <;> simp [Content.bytes]

/-- An entry is read off its own bytes. -/
theorem entryAt_bytes (e : Entry) : entryAt e.bytes e.address 0 = .ok e := by
  obtain ⟨address, content⟩ := e
  cases content <;> rfl

end Entry

section Reading

variable {image rest : List Byte} {hi lo b : Byte} {offset : Nat} (address : Int)

/-- Where two bytes are left, an entry takes them. -/
theorem entryAt_of_drop_word (h : image.drop offset = hi :: lo :: rest) :
    entryAt image address offset = .ok ⟨address, .word hi lo⟩ := by
  have hlength : image.length - offset = rest.length + 2 := by
    rw [← List.length_drop, h]
    rfl
  have hin : ¬ (image.length : Int) ≤ offset := by omega
  have hnext : ¬ (image.length : Int) ≤ offset + 1 := by omega
  have hcut : Window.cut image offset ((offset : Int) + 2) = [hi, lo] := by
    have hstop : (offset : Int) + 2 = ((offset + 2 : Nat) : Int) := by omega
    rw [hstop, Window.cut_natCast (by omega) (by omega), h, Nat.add_sub_cancel_left]
    rfl
  rw [entryAt, if_neg hin, if_neg hnext, hcut]

/-- Where one byte is left, an entry takes it. -/
theorem entryAt_of_drop_trailing (h : image.drop offset = [b]) :
    entryAt image address offset = .ok ⟨address, .trailing b⟩ := by
  have hlength : image.length - offset = 1 := by
    rw [← List.length_drop, h]
    rfl
  have hin : ¬ (image.length : Int) ≤ offset := by omega
  have hlast : (image.length : Int) ≤ offset + 1 := by omega
  have hcut : Window.cut image offset image.length = [b] := by
    rw [Window.cut_natCast (by omega) (Nat.le_refl _), h, hlength]
    rfl
  rw [entryAt, if_neg hin, if_pos hlast, hcut]

end Reading

/-! ## The walk -/

/-- Lists an image entry by entry from an offset on, behind what has been listed
before: as long as there are bytes left, and fewer entries than a count if one is
given. -/
def walk (image : List Byte) (start : Int) (count : Option Int) (offset : Nat)
    (listed : List Entry) : Except Error (List Entry) :=
  if offset < image.length then
    if count.any (· ≤ (listed.length : Int)) then .ok listed
    else
      match entryAt image (start + offset) offset with
      | .ok e => walk image start count (offset + e.size) (listed ++ [e])
      | .error error => .error error
  else .ok listed
termination_by image.length - offset
decreasing_by
  have := e.size_pos
  omega

theorem disassemble_nil (start : Int) (count : Option Int) : disassemble [] start count = [] := by
  cases count <;> simp [disassemble, entries]

/-- A count that is used up leaves nothing. -/
theorem disassemble_of_count {count : Option Int} {n : Int} (h : count.any (· ≤ n))
    (image : List Byte) (start : Int) : disassemble image start (count.map (· - n)) = [] := by
  cases count with
  | none => cases h
  | some c =>
    have hc : c ≤ n := by simpa using h
    have hzero : (c - n).toNat = 0 := by omega
    simp [disassemble, hzero]

/-- A count that is not used up leaves the first entry, and the rest with one less. -/
theorem disassemble_of_entries {count : Option Int} {n : Int} (h : ¬ count.any (· ≤ n))
    {image rest : List Byte} {start next : Int} {e : Entry}
    (he : entries start image = e :: entries next rest) :
    disassemble image start (count.map (· - n)) =
      e :: disassemble rest next (count.map (· - (n + 1))) := by
  cases count with
  | none => exact he
  | some c =>
    have hc : ¬ c ≤ n := by simpa using h
    have hsucc : (c - n).toNat = (c - (n + 1)).toNat + 1 := by omega
    simp [disassemble, he, hsucc]

/-- Where bytes are left, an entry can be read, and what is left behind it is
listed behind it. -/
theorem exists_entryAt {image : List Byte} {offset : Nat} (hin : offset < image.length)
    (start : Int) :
    ∃ e, entryAt image (start + offset) offset = .ok e ∧
      entries (start + offset) (image.drop offset) =
        e :: entries (start + (offset + e.size : Nat)) (image.drop (offset + e.size)) := by
  match h : image.drop offset with
  | [] => exact absurd (List.drop_eq_nil_iff.mp h) (by omega)
  | [b] =>
    refine ⟨_, entryAt_of_drop_trailing _ h, ?_⟩
    have hrest : image.drop (offset + 1) = [] := by rw [← List.drop_drop, h]; rfl
    exact congrArg _ (congrArg (entries _) hrest.symm)
  | hi :: lo :: rest =>
    refine ⟨_, entryAt_of_drop_word _ h, ?_⟩
    have hrest : image.drop (offset + 2) = rest := by rw [← List.drop_drop, h]; rfl
    have hnext : start + offset + 2 = start + (offset + 2 : Nat) := by omega
    rw [entries, hnext, ← hrest]
    rfl

/-- The walk goes on with the listing of what is left. -/
theorem walk_eq (image : List Byte) (start : Int) (count : Option Int) (offset : Nat)
    (listed : List Entry) : walk image start count offset listed =
      .ok (listed ++
        disassemble (image.drop offset) (start + offset) (count.map (· - (listed.length : Int)))) := by
  fun_induction walk image start count offset listed with
  | case1 offset listed hin hcount => rw [disassemble_of_count hcount, List.append_nil]
  | case2 offset listed hin hcount e he ih =>
    obtain ⟨e', he', hentries⟩ := exists_entryAt hin start
    obtain rfl : e = e' := Except.ok.inj (he.symm.trans he')
    have hlength : ((listed ++ [e]).length : Int) = listed.length + 1 := by simp
    rw [ih, hlength, disassemble_of_entries hcount hentries, List.append_assoc, List.singleton_append]
  | case3 offset listed hin hcount error he =>
    obtain ⟨e, he', -⟩ := exists_entryAt hin start
    rw [he] at he'
    cases he'
  | case4 offset listed hin =>
    rw [List.drop_eq_nil_of_le (by omega), disassemble_nil, List.append_nil]

/-! ## The entries -/

theorem length_entries (start : Int) (image : List Byte) :
    (entries start image).length = (image.length + 1) / 2 := by
  induction start, image using entries.induct with
  | case1 start => rfl
  | case2 start b => simp [entries]
  | case3 start hi lo rest ih =>
    simp only [entries, List.length_cons, ih]
    omega

/-- What an entry of an image's listing is between the entries before and behind
it. -/
structure Follows (image : List Byte) (start : Int) (before : List Entry) (e : Entry)
    (after : List Entry) : Prop where
  /-- It stands at the number of bytes before it. -/
  address : e.address = start + (before.flatMap Entry.bytes).length
  /-- It has two bytes, the last one of an odd image a single one. -/
  size : e.size = if after = [] ∧ image.length % 2 = 1 then 1 else 2
  /-- It is what its own bytes alone are listed as. -/
  alone : entryAt ((image.drop (before.flatMap Entry.bytes).length).take e.size) e.address 0 = .ok e

/-- Its own bytes are the image's where it stands. -/
theorem bytes_eq_of_entries {start : Int} {image : List Byte} {before after : List Entry} {e : Entry}
    (h : entries start image = before ++ e :: after) :
    (image.drop (before.flatMap Entry.bytes).length).take e.size = e.bytes := by
  have hbytes := flatMap_bytes_entries start image
  rw [h, List.flatMap_append, List.flatMap_cons] at hbytes
  rw [← hbytes, List.drop_left, Entry.size, List.take_left]

/-- Addresses and sizes of the entries, whatever comes before. -/
theorem address_size_of_entries {start : Int} {image : List Byte} {before after : List Entry}
    {e : Entry} (h : entries start image = before ++ e :: after) :
    e.address = start + (before.flatMap Entry.bytes).length ∧
      e.size = if after = [] ∧ image.length % 2 = 1 then 1 else 2 := by
  induction start, image using entries.induct generalizing before with
  | case1 start => simp [entries] at h
  | case2 start b =>
    cases before with
    | nil =>
      obtain ⟨rfl, rfl⟩ := List.cons.inj h
      exact ⟨(Int.add_zero start).symm, rfl⟩
    | cons f before => simp [entries] at h
  | case3 start hi lo rest ih =>
    cases before with
    | nil =>
      obtain ⟨rfl, hafter⟩ := List.cons.inj h
      refine ⟨(Int.add_zero start).symm, ?_⟩
      -- a single byte would be left over only behind the word
      have hlast : ¬ (after = [] ∧ (hi :: lo :: rest).length % 2 = 1) := by
        rintro ⟨rfl, hodd⟩
        have hlength := length_entries (start + 2) rest
        simp only [hafter, List.length_nil, List.length_cons] at hlength hodd
        omega
      rw [if_neg hlast]
      rfl
    | cons f before =>
      obtain ⟨rfl, hrest⟩ := List.cons.inj h
      obtain ⟨haddress, hsize⟩ := ih hrest
      constructor
      · rw [haddress]
        simp only [List.flatMap_cons, List.length_append, Entry.bytes, Content.bytes,
          List.length_cons, List.length_nil]
        omega
      · have hparity : (hi :: lo :: rest).length % 2 = rest.length % 2 := by
          simp only [List.length_cons]
          omega
        rw [hsize, hparity]

theorem follows_of_entries {start : Int} {image : List Byte} {before after : List Entry} {e : Entry}
    (h : entries start image = before ++ e :: after) : Follows image start before e after where
  address := (address_size_of_entries h).1
  size := (address_size_of_entries h).2
  alone := by rw [bytes_eq_of_entries h, e.entryAt_bytes]

/-- **A listing divides its image.** For every image and every start address, the
walk through the image ends, without a failure, with the listing. The bytes of
the entries in order are the image; there is an entry for every two bytes, and
one for what is left; every entry stands at the number of bytes before it, has
two bytes, or one if it is the last one of an odd image, and is what its own
bytes alone are listed as at its address. A count leaves the first entries of
the whole listing: none if it is negative, and all if it exceeds their number. -/
theorem disassemble_partitions (image : List Byte) (start : Int) :
    (∀ count, walk image start count 0 [] = .ok (disassemble image start count)) ∧
    (disassemble image start none).flatMap Entry.bytes = image ∧
    (disassemble image start none).length = (image.length + 1) / 2 ∧
    (∀ before e after, disassemble image start none = before ++ e :: after →
      Follows image start before e after) ∧
    ∀ c : Int,
      disassemble image start (some c) = (disassemble image start none).take (max c 0).toNat ∧
      ((disassemble image start none).length ≤ c →
        disassemble image start (some c) = disassemble image start none) := by
  refine ⟨fun count => ?_, flatMap_bytes_entries start image, length_entries start image,
    fun before e after => follows_of_entries, fun c => ⟨?_, fun hc => ?_⟩⟩
  · have hcount : count.map (· - ((([] : List Entry).length : Nat) : Int)) = count := by
      cases count <;> simp
    rw [walk_eq, hcount, List.nil_append, List.drop_zero, Int.natCast_zero, Int.add_zero]
  · have hmax : (max c 0).toNat = c.toNat := by omega
    rw [hmax]
    rfl
  · have hle : (disassemble image start none).length ≤ c.toNat := by omega
    exact List.take_of_length_le hle

end Listing
end Chip8
