/-
The lister writes the bytes of a program twice, in the dump and in the listing,
and both can be read back from what it writes, on its stream as well as into a
file. Only the name of the program's file may hold anything else than printable
characters; it ends with its line.
-/
import Chip8.Proofs.Listing.Columns
import Chip8.Proofs.Listing.Lines
import Chip8.Proofs.Text.ControlSequence
import Chip8.Proofs.Tool.Agreement
import Chip8.Tool.Lister

namespace Chip8

namespace Tool

theorem plain_append_line {front rest : String} (hfront : IsPlain front) (hrest : IsPlain rest)
    (text : String) : plain (front ++ text ++ "\n" ++ rest) = front ++ plain text ++ "\n" ++ rest := by
  have hlist : (front ++ text ++ "\n" ++ rest).toList =
      front.toList ++ (text.toList ++ '\n' :: rest.toList) := by simp
  apply String.toList_inj.1
  simp only [plain, hlist, Text.ControlSequence.remove_append_of_not_mem hfront,
    Text.ControlSequence.remove_append_newline hrest]
  simp

/-- A line is shown as it is. -/
theorem isPlain_of_isLine {text : String} (h : Listing.IsLine text) : IsPlain text :=
  fun hescape => absurd (h _ hescape) (by decide)

namespace Lister

open Listing

/-- The command line asks for a listing. -/
def Asks (files : FileTree) (arguments : List String) (r : Request) : Prop :=
  ∃ c, CommandLine.read switches arguments = .ok c ∧ c.first? [.version, .help] = none ∧
    request files c = .ok r

theorem run_of_asks {files : FileTree} {arguments : List String} {r : Request}
    (h : Asks files arguments r) : run files arguments = serve files r := by
  obtain ⟨c, hread, hfirst, hrequest⟩ := h
  simp only [run, hread, hfirst, hrequest]

/-! ## The text -/

/-- The lines below the first one. -/
def linesBelow (image : List Byte) (base : Int) (dump listing : List String) : List String :=
  ["; Size: " ++ toString image.length ++ " bytes", "; Base address: $" ++ Numeral.hex 3 base, ""] ++
    ("; Hex dump:" :: rule :: dump ++ [rule, ""]) ++ listing

/-- A text with the name of a file in its first line, a dump between two rules, and
a listing. -/
def sheet (fileName : String) (image : List Byte) (base : Int) (dump listing : List String) : String :=
  "; Disassembly of " ++ fileName ++ "\n" ++
    (String.intercalate "\n" (linesBelow image base dump listing) ++ "\n")

theorem intercalate_below {below : List String} (h : below ≠ []) (line : String) :
    String.intercalate "\n" (line :: below) ++ "\n" =
      line ++ "\n" ++ (String.intercalate "\n" below ++ "\n") := by
  rw [String.intercalate_cons_of_ne_nil h, String.append_assoc]

theorem document_eq {r : Request} (hdump : r.dump = true) (hbrief : r.brief = false)
    (image : List Byte) (base : Int) (entries : List Entry) : document r image base entries =
      sheet r.input.name image base (dumpLines image base) (entries.map Entry.line) := by
  have hline : entryLine r.brief = Entry.line := by
    funext e
    rw [entryLine, hbrief, if_neg Bool.false_ne_true]
  have hall : header r.input.name image base ++ dumpSection image base ++ entries.map Entry.line =
      ("; Disassembly of " ++ r.input.name) ::
        linesBelow image base (dumpLines image base) (entries.map Entry.line) := by
    simp [header, dumpSection, linesBelow]
  have hne : linesBelow image base (dumpLines image base) (entries.map Entry.line) ≠ [] := by
    simp [linesBelow]
  rw [document, if_pos hdump, hline, hall]
  exact intercalate_below hne _

theorem isPlain_linesBelow {dump listing : List String} (h : ∀ line ∈ dump ++ listing, IsLine line)
    (image : List Byte) (base : Int) : ∀ line ∈ linesBelow image base dump listing, IsPlain line := by
  obtain ⟨hdump, hlisting⟩ := List.forall_mem_append.1 h
  have hrule : IsPlain rule := by decide
  simp only [linesBelow, List.forall_mem_append, List.forall_mem_cons, IsPlain.append_iff,
    IsPlain.count, IsPlain.hex, hrule, and_true, true_and]
  have hsize : IsPlain "; Size: " ∧ IsPlain " bytes" := by decide
  have hbase : IsPlain "; Base address: $" ∧ IsPlain "" ∧ IsPlain "; Hex dump:" := by decide
  refine ⟨⟨⟨hsize, hbase.1, hbase.2.1, by simp⟩, ⟨hbase.2.2, ?_⟩, hbase.2.1, by simp⟩, ?_⟩
  · exact fun line hline => isPlain_of_isLine (hdump line hline)
  · exact fun line hline => isPlain_of_isLine (hlisting line hline)

/-- Of such a text a tool shows all, but of the name only what is plain. -/
theorem plain_sheet {image : List Byte} {base : Int} {dump listing : List String}
    (h : ∀ line ∈ dump ++ listing, IsLine line) (fileName : String) :
    plain (sheet fileName image base dump listing) =
      sheet (plain fileName) image base dump listing := by
  have hbelow : IsPlain (String.intercalate "\n" (linesBelow image base dump listing) ++ "\n") :=
    IsPlain.append_iff.2 ⟨IsPlain.intercalate (by decide) (isPlain_linesBelow h image base), by decide⟩
  exact plain_append_line (by decide) hbelow fileName

/-! ## The outcome -/

/-- What a successful run puts on its stream and into files. -/
structure Writes (o : Outcome) (stdout : String) (files : List (Place × Document)) : Prop where
  ending : o.ending = .exit .success
  stdout : o.stdout = stdout
  written : o.written = files

section Outcome

variable {files : FileTree} {r : Request} {base : Int} {image : List Byte}

theorem exists_openingEvents (r : Request) (image : List Byte) (base : Int) :
    ∃ texts : List String, openingEvents r image base = texts.map .err := by
  unfold openingEvents
  split
  · exact ⟨[_, _], rfl⟩
  · exact ⟨[], rfl⟩

theorem exists_closingEvents (r : Request) (entries : List Entry) :
    ∃ texts : List String, closingEvents r entries = texts.map .err := by
  unfold closingEvents
  split
  · exact ⟨[_], rfl⟩
  · exact ⟨[], rfl⟩

/-- What is delivered is all that goes to the stream and into files. -/
theorem writes_list {more : List Event} (hne : image ≠ [])
    (hdeliver : deliver files r (document r image base (disassemble image base r.count)) = .ok more) :
    Writes (list files r base image) (String.join (Streams.ofEvents more).out)
      (Streams.ofEvents more).files := by
  obtain ⟨opening, hopening⟩ := exists_openingEvents r image base
  obtain ⟨closing, hclosing⟩ := exists_closingEvents r (disassemble image base r.count)
  have hevents : Streams.ofEvents (list files r base image).events =
      { out := (Streams.ofEvents more).out
        err := lines (notes r.verbose ("Loaded ROM '" ++ r.input.name ++ "' (" ++
          toString image.length ++ " bytes)")) ++ opening ++ (Streams.ofEvents more).err ++ closing
        pauses := (Streams.ofEvents more).pauses
        files := (Streams.ofEvents more).files } := by
    simp only [list, if_neg hne, hdeliver, hopening, hclosing, debug_eq, Streams.ofEvents_append,
      Streams.ofEvents_errs, Streams.append_eq, List.nil_append, List.append_nil]
  refine ⟨?_, ?_, ?_⟩
  · simp only [list, if_neg hne, hdeliver]
  · exact congrArg (fun t : Streams => String.join t.out) hevents
  · exact congrArg Streams.files hevents

theorem writes_stdout (hne : image ≠ []) (houtput : r.output = none) :
    Writes (list files r base image)
      (plain (document r image base (disassemble image base r.count))) [] := by
  have hdeliver : ∀ text, deliver files r text = .ok [.out (plain text)] := by
    intro text
    rw [deliver, houtput]
  have hjoin : ∀ text, String.join (Streams.ofEvents [.out text]).out = text := by
    intro text
    simp [Streams.ofEvents, String.join]
  have hwrites := writes_list hne (hdeliver (document r image base (disassemble image base r.count)))
  rwa [hjoin] at hwrites

theorem writes_file {path : Path} {place : Place} (hne : image ≠ []) (houtput : r.output = some path)
    (htarget : files.target path = .ok place) :
    Writes (list files r base image) ""
      [(place, .text (document r image base (disassemble image base r.count)))] := by
  have hdeliver : ∀ text, ∃ more, deliver files r text = .ok more ∧
      (Streams.ofEvents more).out = [] ∧ (Streams.ofEvents more).files = [(place, .text text)] := by
    intro text
    simp only [deliver, houtput, htarget]
    split <;> exact ⟨_, rfl, rfl, rfl⟩
  obtain ⟨more, hmore, hout, hfiles⟩ :=
    hdeliver (document r image base (disassemble image base r.count))
  have hwrites := writes_list hne hmore
  rwa [hout, hfiles] at hwrites

end Outcome

/-! ## Reading back -/

/-- The lines of a dump and of a listing are lines, and all of them are read back:
the dump as the image in sixteens, the listing as what it shows of the image. -/
structure ReadsBack (start : Nat) (image : List Byte) (count : Option Int)
    (dump listing : List String) : Prop where
  lines : ∀ line ∈ dump ++ listing, IsLine line
  dump : ∃ rows, dump.map dumpRow? = rows.map some ∧ Tile start image rows ∧ InSixteens start image rows
  listing : ∃ rows, listing.map listingRow? = rows.map some ∧ Tile start (listed image count) rows

theorem readsBack (start : Nat) (image : List Byte) (count : Option Int) :
    ReadsBack start image count (dumpLines image start)
      ((disassemble image start count).map Entry.line) where
  lines := List.forall_mem_append.2
    ⟨isLine_dumpLines image start, List.forall_mem_map.2 fun e _ => e.isLine_line⟩
  dump := ⟨_, map_dumpRow? start image, tile_dumpRows start image, inSixteens_dumpRows start image⟩
  listing := ⟨_, map_listingRow? image start count, tile_rows image start count⟩

theorem range_of_baseAddress {text : String} {base : Int} (h : baseAddress text = .ok base) :
    0 ≤ base ∧ base ≤ 0xFFF := by
  unfold baseAddress at h
  split at h
  · cases h
  · split at h
    next hrange =>
      cases h
      exact hrange
    · cases h

/-- **Dump and listing both give back the program.** For every command line that asks
for a dump and for bytes, every base address that is accepted and every program that
is neither empty nor too long, the lister ends well. Every line of the dump is read
back, and they have the bytes of the program in order, sixteen in a line and what is
left in the last, each line at the address of its first byte. Every line of the
listing is read back too, and they have the bytes of the program in order, with a
count only the first of them, two for every entry. With the lines above and between
them that is all the lister writes, on its stream or into the file it is asked for. -/
theorem bytes_areReadBack {files : FileTree} {arguments : List String} {r : Request} {base : Int}
    {image : List Byte} (hasks : Asks files arguments r) (hbase : baseAddress r.address = .ok base)
    (hread : files.read r.input = .ok image) (hsize : image.length ≤ 0xE00) (hne : image ≠ [])
    (hdump : r.dump = true) (hbrief : r.brief = false) :
    ∃ (start : Nat) (dump listing : List String), base = start ∧
      ReadsBack start image r.count dump listing ∧
      (r.output = none →
        Writes (run files arguments) (sheet (plain r.input.name) image base dump listing) []) ∧
      ∀ path place, r.output = some path → files.target path = .ok place →
        Writes (run files arguments) ""
          [(place, .text (sheet r.input.name image base dump listing))] := by
  obtain ⟨start, rfl⟩ := Int.eq_ofNat_of_zero_le (range_of_baseAddress hbase).1
  have hload : files.loadProgram r.input = .ok image :=
    FileTree.loadProgram_eq_ok_iff.2 ⟨hread, hsize⟩
  have hrun : run files arguments = list files r start image := by
    simp only [run_of_asks hasks, serve, hbase, hload]
  have hback := readsBack start image r.count
  have hdocument := document_eq hdump hbrief image start (disassemble image start r.count)
  refine ⟨start, _, _, rfl, hback, fun houtput => ?_, fun path place houtput htarget => ?_⟩
  · rw [hrun, ← plain_sheet hback.lines, ← hdocument]
    exact writes_stdout hne houtput
  · rw [hrun, ← hdocument]
    exact writes_file hne houtput htarget

/-- A program of nineteen bytes. -/
def odd : List Byte := 0xA2 :: 0x2A :: List.replicate 17 0xFF

/-- Nothing but that program. -/
def oddTree : FileTree := { nodes := [(["a.ch8"], .file odd)] }

/-- All nineteen bytes are in the dump, whose second line has an address of four digits,
and two words of them in the listing. -/
theorem odd_isReadBack : ∃ dump listing,
    (run oddTree ["a.ch8", "--hex", "-a", "0xFFF", "-c", "2"]).stdout =
      sheet "a.ch8" odd 0xFFF dump listing ∧
    (∃ rows, dump.map dumpRow? = rows.map some ∧ Tile 0xFFF odd rows ∧ InSixteens 0xFFF odd rows) ∧
    ∃ rows, listing.map listingRow? = rows.map some ∧ Tile 0xFFF [0xA2, 0x2A, 0xFF, 0xFF] rows := by
  let r : Request := { input := .ofString "a.ch8", address := "0xFFF", count := some 2, dump := true }
  have hasks : Asks oddTree ["a.ch8", "--hex", "-a", "0xFFF", "-c", "2"] r := ⟨_, rfl, rfl, by decide +kernel⟩
  have hbase : baseAddress "0xFFF" = .ok 0xFFF := by decide +kernel
  have hread : oddTree.read (.ofString "a.ch8") = .ok odd := by decide +kernel
  have hname : plain r.input.name = "a.ch8" := by decide +kernel
  obtain ⟨start, dump, listing, hstart, hback, hstdout, -⟩ :=
    bytes_areReadBack hasks hbase hread (by decide) (by decide) rfl rfl
  obtain rfl : start = 0xFFF := by omega
  have hwritten := (hstdout rfl).stdout
  rw [hname] at hwritten
  exact ⟨dump, listing, hwritten, hback.dump, hback.listing⟩

end Lister

end Tool
end Chip8
