/-
# Dumps show what they cover

A dump is a text for the part of a machine that it covers, and for all of it: two machines
have the same dump exactly if they agree there. Each kind of dump is taken apart in its own
way. A dump of memory is cut into its lines, whose digits from top to bottom are the bytes,
two digits for each. A picture has a line for every row and a character for every pixel.
The keys that are down are named without anything between them, but all names have the
same length.

Right behind a load, a dump of as many bytes as the program has and the listing of the
program have the same addresses and the same digits, line by line.
-/

import ChipEight.Emulator.Dump
import ChipEight.Proofs.Layout
import ChipEight.Proofs.Reload
import Mathlib.Data.List.Count

namespace ChipEight

namespace Numeral

theorem upperDigit_inj {d e : Nat} (small : d < 16) (small' : e < 16)
    (same : upperDigit d = upperDigit e) : d = e := by
  rw [← digitValue_upperDigit small, same, digitValue_upperDigit small']

theorem lowerDigit_inj {d e : Nat} (small : d < 16) (small' : e < 16)
    (same : lowerDigit d = lowerDigit e) : d = e := by
  have told : ∀ d < 16, ∀ e < 16, lowerDigit d = lowerDigit e → d = e := by decide
  exact told d small e small' same

end Numeral

/-! ## Memory -/

namespace Listing

/-- What a line of a memory dump shows, its end apart. -/
def dumpText (line : Line) : List Char :=
  Numeral.hexPadded 4 line.address ++ ": ".toList ++ line.chunk.hexText

/-- What stands in a line of a memory dump in front of the colon. -/
def dumpedAddress (line : List Char) : List Char :=
  line.takeWhile (· ≠ ':')

/-- What stands in a line of a memory dump behind the blank. -/
def dumpedDigits (line : List Char) : List Char :=
  (line.dropWhile (· ≠ ' ')).drop 1

/-- What stands in a line of a listing between the marker and the first blank. -/
def addressColumn (line : List Char) : List Char :=
  (line.drop 2).takeWhile (· ≠ ' ')

theorem dumpedAddress_dumpText (line : Line) :
    dumpedAddress (dumpText line) = Numeral.hexPadded 4 line.address := by
  rw [dumpedAddress, dumpText, List.append_assoc]
  exact takeWhile_ne_append (Numeral.not_mem_hexPadded rfl 4 line.address) _

theorem dumpedDigits_dumpText (line : Line) :
    dumpedDigits (dumpText line) = line.chunk.hexText := by
  have digits := Numeral.not_mem_hexPadded (c := ' ') rfl 4 line.address
  have front : ' ' ∉ Numeral.hexPadded 4 line.address ++ [':'] := by
    simp [digits]
  have split : dumpText line =
      Numeral.hexPadded 4 line.address ++ [':'] ++ ' ' :: line.chunk.hexText := by
    simp [dumpText]
  rw [dumpedDigits, split, dropWhile_ne_append front]
  rfl

theorem addressColumn_text (line : Line) :
    addressColumn line.text = Numeral.hexPadded 4 line.address := by
  have behind : ∃ rest, line.text.drop 2 = Numeral.hexPadded 4 line.address ++ ' ' :: rest :=
    ⟨line.chunk.hexText ++ List.replicate (4 - line.chunk.hexText.length) ' ' ++
      ' ' :: line.chunk.assembly, by simp [Line.text, Line.addressText]⟩
  obtain ⟨rest, split⟩ := behind
  rw [addressColumn, split, takeWhile_ne_append (Numeral.not_mem_hexPadded rfl 4 line.address)]

/-- Lines for the same bytes have the same columns, dumped or listed. -/
theorem map_columns_dumpText (ls : List Line) :
    (ls.map dumpText).map (fun line => (dumpedAddress line, dumpedDigits line)) =
      (ls.map Line.text).map fun line => (addressColumn line, byteColumn line) := by
  rw [List.map_map, List.map_map]
  refine List.map_congr_left fun line _ => ?_
  simp only [Function.comp_apply, dumpedAddress_dumpText, dumpedDigits_dumpText,
    addressColumn_text, byteColumn_text]

theorem newline_not_mem_dumpText (line : Line) : '\n' ∉ dumpText line := by
  have address := Numeral.not_mem_hexPadded (c := '\n') rfl 4 line.address
  have bytes := line.chunk.not_mem_hexText (c := '\n') rfl
  simp [dumpText, address, bytes]

theorem byteDigits_inj {b c : UInt8} (same : byteDigits b = byteDigits c) : b = c := by
  have bound := b.toNat_lt
  have bound' := c.toNat_lt
  rw [byteDigits_eq, byteDigits_eq] at same
  obtain ⟨high, rest⟩ := List.cons.inj same
  have first := Numeral.upperDigit_inj (by omega) (by omega) high
  have second := Numeral.upperDigit_inj (by omega) (by omega) (List.cons.inj rest).1
  apply UInt8.toNat_inj.mp
  omega

end Listing

namespace Memory

theorem span_eq_span_iff {m m' : Memory} {start length : Nat} :
    m.span start length = m'.span start length ↔
      ∀ a, start ≤ a → a < start + length → m.byteAt a = m'.byteAt a := by
  rw [span, span, List.map_inj_left]
  constructor
  · intro same a from_start before_end
    have here := same (a - start) (List.mem_range.mpr (by omega))
    rwa [Nat.add_sub_cancel' from_start] at here
  · intro same i member
    exact same _ (Nat.le_add_right ..) (Nat.add_lt_add_left (List.mem_range.mp member) start)

end Memory

namespace Machine

open Listing

variable {m m' : Machine}

theorem hasLines_dumpMemory (m : Machine) (count : Nat) :
    HasLines (m.dumpMemory count).toList
      ((lines Memory.programStart (m.dumpedBytes count)).map dumpText) where
  text_eq := by
    rw [dumpMemory, String.toList_ofList, List.flatMap_map]
    rfl
  newline_not_mem l member := by
    obtain ⟨line, -, rfl⟩ := List.mem_map.mp member
    exact newline_not_mem_dumpText line

theorem length_dumpedBytes (m : Machine) (count : Nat) :
    (m.dumpedBytes count).length = min count 3584 := by
  rw [dumpedBytes, Memory.length_span]
  rfl

/-- In front of the colon stands the address, two bytes further on in every line. -/
theorem exists_dumpText_eq_of_getElem? {count i : Nat} {text : List Char}
    (here : ((lines Memory.programStart (m.dumpedBytes count)).map dumpText)[i]? = some text) :
    ∃ address digits, text = address ++ ": ".toList ++ digits ∧
      Numeral.IsHex 4 (0x200 + 2 * i) address := by
  have below := (List.getElem?_eq_some_iff.mp here).1
  rw [List.length_map, length_lines, length_dumpedBytes] at below
  have inside : 0x200 + 2 * i < UInt64.size := by
    rw [UInt64.size]
    omega
  obtain ⟨chunk, rfl⟩ := exists_chunk_of_getElem? here
  refine ⟨_, chunk.hexText, rfl, ?_⟩
  rw [← lineAddress_of_lt inside]
  exact Numeral.isHex_hexPadded 3 _

/-- The bytes are told from the dump. -/
theorem dumpMemory_inj {count : Nat} :
    m.dumpMemory count = m'.dumpMemory count ↔ m.dumpedBytes count = m'.dumpedBytes count := by
  constructor
  · intro same
    have made' := m'.hasLines_dumpMemory count
    rw [← same] at made'
    have shown := congrArg (List.flatMap dumpedDigits) ((m.hasLines_dumpMemory count).unique made')
    rw [flatMap_column_lines dumpedDigits_dumpText,
      flatMap_column_lines dumpedDigits_dumpText] at shown
    exact flatMap_inj_of_length (fun _ => rfl) (fun _ _ => byteDigits_inj) shown
  · intro same
    rw [dumpMemory, dumpMemory, same]

theorem dumpMemory_eq_iff {count : Nat} :
    m.dumpMemory count = m'.dumpMemory count ↔
      ∀ a, 0x200 ≤ a → a < min (0x200 + count) 4096 → m.memory.byteAt a = m'.memory.byteAt a := by
  have stop : 0x200 + min count Memory.programCapacity = min (0x200 + count) 4096 := by
    have capacity : 0x200 + Memory.programCapacity = 4096 := rfl
    omega
  rw [dumpMemory_inj, dumpedBytes, dumpedBytes, Memory.span_eq_span_iff, ← stop]
  rfl

end Machine

/-! ## The display -/

/-- A grid is read row by row as its places are numbered. -/
theorem flatMap_range_map_range {α : Type} (f : Nat → Nat → α) (width height : Nat) :
    (List.range height).flatMap (fun y => (List.range width).map fun x => f x y) =
      (List.range (height * width)).map fun i => f (i % width) (i / width) := by
  induction height with
  | zero => rw [Nat.zero_mul]; rfl
  | succ height ih =>
      have last : (List.range width).map (fun x => f x height) =
          (List.range width).map fun x =>
            f ((height * width + x) % width) ((height * width + x) / width) := by
        refine List.map_congr_left fun x member => ?_
        have inside := List.mem_range.mp member
        rw [Nat.mul_add_mod_self_right, Nat.mod_eq_of_lt inside, Nat.mul_comm,
          Nat.mul_add_div (by omega), Nat.div_eq_of_lt inside, Nat.add_zero]
      rw [List.range_succ, List.flatMap_append, List.flatMap_singleton, ih, last, Nat.succ_mul,
        List.range_add, List.map_append, List.map_map]
      rfl

namespace Display

variable {d d' : Display}

theorem hasLines_picture (d : Display) :
    HasLines d.picture (d.rows.map (List.map pixelChar)) where
  text_eq := by
    rw [picture, List.flatMap_map]
  newline_not_mem l member := by
    obtain ⟨row, -, rfl⟩ := List.mem_map.mp member
    intro inside
    obtain ⟨pixel, -, same⟩ := List.mem_map.mp inside
    cases pixel <;> cases same

theorem pixelChar_injective : Function.Injective pixelChar := by
  have back : Function.LeftInverse (· == '#') pixelChar := by
    rintro (_ | _) <;> rfl
  exact back.injective

/-- Every row has a line, with a character for each of its pixels. -/
theorem getElem?_picture_lines (d : Display) {y : Nat} (below : y < height) :
    (d.rows.map (List.map pixelChar))[y]? =
      some ((List.range width).map fun x => if d.lit x y then '#' else '.') := by
  rw [List.getElem?_map, rows, List.getElem?_map, List.getElem?_range below, Option.map_some,
    Option.map_some, row, List.map_map]
  rfl

theorem rows_eq_iff : d.rows = d'.rows ↔ ∀ x < 64, ∀ y < 32, d.lit x y = d'.lit x y := by
  simp only [rows, row, List.map_inj_left, List.mem_range, width, height]
  exact ⟨fun same x inside y below => same y below x inside,
    fun same y below x inside => same x inside y below⟩

theorem picture_eq_iff : d.picture = d'.picture ↔ ∀ x < 64, ∀ y < 32, d.lit x y = d'.lit x y := by
  constructor
  · intro same
    have made' := d'.hasLines_picture
    rw [← same] at made'
    have shown := d.hasLines_picture.unique made'
    have told (row row' : List Bool) (same : row.map pixelChar = row'.map pixelChar) :
        row = row' :=
      (List.map_inj_right fun _ _ equal => pixelChar_injective equal).mp same
    exact rows_eq_iff.mp ((List.map_inj_right told).mp shown)
  · intro same
    rw [picture, rows_eq_iff.mpr same]
    rfl

/-- The rows one behind the other are the pixels as they are stored. -/
theorem flatten_rows (d : Display) : d.rows.flatten = d.pixels.toList := by
  have grid : d.rows.flatten =
      (List.range (height * width)).map fun i => d.lit (i % width) (i / width) :=
    flatMap_range_map_range d.lit width height
  rw [grid]
  refine List.ext_getElem (by simp [height, width]) fun i inside inside' => ?_
  have bound : i < 2048 := by simpa using inside'
  have there : (place (i % 64) (i / 64)).val = i := by
    simp only [place]
    omega
  simp [lit, width, there]

/-- As many hashes are shown as pixels are lit. -/
theorem count_picture (d : Display) : d.picture.count '#' = d.litCount := by
  have shown (row : List Bool) : (row.map pixelChar ++ ['\n']).count '#' = row.count true := by
    rw [List.count_append]
    exact List.count_map_of_injective row pixelChar pixelChar_injective true
  calc d.picture.count '#'
      = (d.rows.map fun row => row.count true).sum := by
        rw [picture, List.count_flatMap]
        exact congrArg (fun count => (d.rows.map count).sum) (funext shown)
    _ = d.rows.flatten.count true := List.count_flatten.symm
    _ = d.litCount := by rw [flatten_rows, Vector.count_toList, litCount]

end Display

/-! ## The keys -/

namespace Keypad

theorem keysDown_inj {p q : Keypad} : p.keysDown = q.keysDown ↔ p = q := by
  constructor
  · intro same
    refine ext_isDown fun k => Bool.eq_iff_iff.mpr ?_
    have member (p : Keypad) : k ∈ p.keysDown ↔ p.isDown k.val = true := by
      simp [keysDown, Key.all]
    rw [← member, ← member, same]
  · rintro rfl
    rfl

end Keypad

theorem Key.name_inj {k l : Key} (same : k.name = l.name) : k = l :=
  Fin.ext (Numeral.lowerDigit_inj k.isLt l.isLt (List.cons.inj (List.cons.inj same).2).1)

namespace Machine

open Listing

variable {m m' : Machine}

/-- Behind the heading stand the names, and neither is there if no key is down. -/
theorem drop_dumpKeys (m : Machine) :
    m.dumpKeys.toList.drop 6 = m.keypad.keysDown.flatMap Key.name := by
  rw [dumpKeys]
  split
  · next none => rw [none]; rfl
  · rw [String.toList_ofList]; rfl

theorem dumpKeys_eq_iff : m.dumpKeys = m'.dumpKeys ↔ m.keypad = m'.keypad := by
  constructor
  · intro same
    have names := congrArg (fun text => text.toList.drop 6) same
    rw [drop_dumpKeys, drop_dumpKeys] at names
    exact Keypad.keysDown_inj.mp (flatMap_inj_of_length (fun _ => rfl)
      (fun _ _ => Key.name_inj) names)
  · intro same
    rw [dumpKeys, dumpKeys, same]

/-! ## Right behind a load -/

theorem dumpedBytes_loaded {program : List UInt8}
    (fits : program.length ≤ Memory.programCapacity) (m : Machine) :
    (m.loaded program).dumpedBytes program.length = program := by
  rw [dumpedBytes, Nat.min_eq_left fits]
  refine List.ext_getElem (by simp [Memory.span]) fun i _ inside => ?_
  simp only [Memory.span, List.getElem_map, List.getElem_range]
  exact Memory.byteAt_image fits inside

/-- A dump and what it covers determine each other. Two machines have the same dump of memory
exactly if they agree on every byte from where programs start to the end of what is dumped, the
same picture exactly if every pixel agrees, and the same names of keys exactly if their keypads
are equal.

A dump of memory has a line for every two bytes and one more for a byte left over, and each
line starts with the address of its bytes. A picture has 32 lines of 64 characters, a hash
where the pixel is lit and a dot where it is not, and so as many hashes as pixels are lit.

Whatever an emulator did before, right behind the load of a program that fits, the lines of a
dump of as many bytes have the addresses and the digits of the lines of the listing. -/
theorem dumps_show_what_they_cover (m m' : Machine) :
    (∀ count,
      (m.dumpMemory count = m'.dumpMemory count ↔
        ∀ a, 0x200 ≤ a → a < min (0x200 + count) 4096 →
          m.memory.byteAt a = m'.memory.byteAt a) ∧
      ∃ ls, HasLines (m.dumpMemory count).toList ls ∧ ls.length = (min count 3584 + 1) / 2 ∧
        ∀ i l, ls[i]? = some l → ∃ address digits,
          l = address ++ ": ".toList ++ digits ∧ Numeral.IsHex 4 (0x200 + 2 * i) address) ∧
    (m.dumpDisplay = m'.dumpDisplay ↔
      ∀ x < 64, ∀ y < 32, m.display.lit x y = m'.display.lit x y) ∧
    (∃ ls, HasLines m.dumpDisplay.toList ls ∧ ls.length = 32 ∧
      ∀ y < 32, ls[y]? =
        some ((List.range 64).map fun x => if m.display.lit x y then '#' else '.')) ∧
    m.dumpDisplay.toList.count '#' = m.display.litCount ∧
    (m.dumpKeys = m'.dumpKeys ↔ m.keypad = m'.keypad) ∧
    ∀ (e : Emulator) (program : List UInt8) (now : Readings), program.length ≤ 3584 →
      ∃ f, e.load program now = (.ok (), f) ∧
        ∃ dumped listed,
          HasLines (f.machine.dumpMemory program.length).toList dumped ∧
          HasLines (text 0x200 program).toList listed ∧
          dumped.map (fun line => (dumpedAddress line, dumpedDigits line)) =
            listed.map fun line => (addressColumn line, byteColumn line) := by
  refine ⟨fun count => ⟨dumpMemory_eq_iff, _, m.hasLines_dumpMemory count, ?_, ?_⟩, ?_, ?_, ?_,
    dumpKeys_eq_iff, ?_⟩
  · rw [List.length_map, length_lines, length_dumpedBytes]
  · exact fun i l here => exists_dumpText_eq_of_getElem? here
  · rw [dumpDisplay, dumpDisplay, String.ofList_inj, Display.picture_eq_iff]
  · rw [dumpDisplay, String.toList_ofList]
    exact ⟨_, m.display.hasLines_picture, rfl, fun _ below =>
      m.display.getElem?_picture_lines below⟩
  · rw [dumpDisplay, String.toList_ofList, Display.count_picture]
  · intro e program now fits
    have listed : HasLines (text 0x200 program).toList ((lines 0x200 program).map Line.text) := by
      rw [text, String.toList_ofList]
      exact hasLines_chars 0x200 program
    have dumped := (e.machine.loaded program).hasLines_dumpMemory program.length
    rw [dumpedBytes_loaded fits] at dumped
    exact ⟨_, Emulator.load_of_fits fits now, _, _, dumped, listed, map_columns_dumpText _⟩

/-- Two machines with programs of three bytes that differ in the last, and a key down on one of
them: a dump of two bytes does not tell them apart and a dump of three does, nor do their pictures
but the names of the keys do. -/
theorem dumps_show_what_they_cover_odd :
    let m := (powerOn 7).after [.load [0x12, 0x34, 0x56], .setKey 10 true]
    let m' := (powerOn 7).after [.load [0x12, 0x34, 0x57]]
    let e := Emulator.ofSettings ⟨none, 0, some 7⟩ (.replicate 8 0) 0
    m.dumpMemory 2 = m'.dumpMemory 2 ∧ m.dumpMemory 3 ≠ m'.dumpMemory 3 ∧
      (∃ ls, HasLines (m.dumpMemory 3).toList ls ∧ ls.length = 2) ∧
      m.dumpDisplay = m'.dumpDisplay ∧ m.dumpKeys ≠ m'.dumpKeys ∧
      ∃ f dumped listed, e.load [0x12, 0x34, 0x56] 5 = (.ok (), f) ∧
        HasLines (f.machine.dumpMemory 3).toList dumped ∧
        HasLines (text 0x200 [0x12, 0x34, 0x56]).toList listed ∧
        dumped.map (fun line => (dumpedAddress line, dumpedDigits line)) =
          listed.map fun line => (addressColumn line, byteColumn line) := by
  intro m m' e
  obtain ⟨memory, display, -, -, keys, load⟩ := dumps_show_what_they_cover m m'
  have first : m.memory.byteAt 0x200 = m'.memory.byteAt 0x200 := by decide +kernel
  have second : m.memory.byteAt 0x201 = m'.memory.byteAt 0x201 := by decide +kernel
  have third : m.memory.byteAt 0x202 ≠ m'.memory.byteAt 0x202 := by decide +kernel
  have dark : m.display = .dark := rfl
  have dark' : m'.display = .dark := rfl
  have down : m.keypad ≠ m'.keypad := by decide +kernel
  obtain ⟨f, loaded, dumped, listed, dump, listing, columns⟩ :=
    load e [0x12, 0x34, 0x56] 5 (by decide)
  obtain ⟨ls, made, count, -⟩ := (memory 3).2
  refine ⟨(memory 2).1.mpr fun a low high => ?_, fun same => ?_, ⟨ls, made, count⟩, ?_,
    fun same => down (keys.mp same), f, dumped, listed, loaded, dump, listing, columns⟩
  · rcases Nat.eq_or_lt_of_le low with rfl | above
    · exact first
    · have last : a = 0x201 := by omega
      rw [last]
      exact second
  · exact third ((memory 3).1.mp same 0x202 (by decide) (by decide))
  · exact display.mpr fun _ _ _ _ => by rw [dark, dark']

end Machine

end ChipEight
