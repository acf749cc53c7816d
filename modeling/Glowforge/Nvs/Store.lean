import Glowforge.Lib.Memory
import Glowforge.Lib.Runs
import Mathlib.Data.UInt

/-!
# Glowforge — the settings file (`eeprom.c`, `grbl_eeprom_extensions.c`)

The core's settings live in a file that stands for an EEPROM of 4096 bytes. A byte is written
through to the file at once; a block is its bytes one after another, with a checksum behind them. The
process may die between any two bytes, and the next one opens the file again.

* **`Store`**, **`Label`**, **`step`** — the file, the process that has it open or has not, and what
  either may do.
* **`fputAt_view`** — what one byte does to a file, which may be too short.
* **`Whole`**, **`reach_replay`** — over a file of full length the store is a memory: it holds what was
  put last, across every death of the process.
* **`memcpyToEeprom`**, **`memcpyFromEeprom`** — the blocks.
* **`block_after_death`** — what a block reads as behind a write that was cut off anywhere, and behind
  one that was not; and the cells beside it.

The results of `fseek`, `fputc` and `fflush` are not here: the file takes every byte.
-/

namespace Glowforge.Nvs

open Function (update)
open Runs (Reach observe)

/-! ## The file

The emulation is one file of 4096 bytes. A read beyond its end answers as erased flash does, and a
write beyond its end fills the gap with zeros, as `fseek` and `fputc` do. -/

/-- `MAX_EEPROM_SIZE`. -/
def maxEepromSize : ℕ := 4096

/-- `fseek` and `fgetc`: an end of file reads as erased. -/
def fgetAt (file : List UInt8) (a : ℕ) : UInt8 := file[a]?.getD 0xFF

/-- `fseek` and `fputc`: a byte behind the end leaves zeros before it. -/
def fputAt (file : List UInt8) (a : ℕ) (v : UInt8) : List UInt8 :=
  if a < file.length then file.set a v else file ++ List.replicate (a - file.length) 0 ++ [v]

/-- A byte that is put changes itself, and what was missing before it. -/
theorem fputAt_view (file : List UInt8) (a : ℕ) (v : UInt8) (b : ℕ) :
    fgetAt (fputAt file a v) b =
      if b = a then v else if file.length ≤ b ∧ b < a then 0 else fgetAt file b := by
  rw [fgetAt, fputAt]
  split
  · next hin =>
    split
    · next hb =>
      rw [hb, List.getElem?_set_self hin]
      rfl
    · next hb =>
      rw [List.getElem?_set_ne (Ne.symm hb), if_neg (by omega)]
      rfl
  · next hout =>
    have hlen : (file ++ List.replicate (a - file.length) 0).length = a := by
      rw [List.length_append, List.length_replicate]
      omega
    split
    · next hb =>
      rw [hb, List.getElem?_append_right hlen.le, hlen, Nat.sub_self]
      rfl
    · next hb =>
      split
      · next hgap =>
        rw [List.getElem?_append_left (by omega), List.getElem?_append_right hgap.1,
          List.getElem?_replicate, if_pos (by omega)]
        rfl
      · next hgap =>
        by_cases hfile : b < file.length
        · rw [List.getElem?_append_left (by omega), List.getElem?_append_left hfile]
          rfl
        · rw [List.getElem?_eq_none (by rw [List.length_append, hlen, List.length_singleton]; omega), fgetAt,
            List.getElem?_eq_none (by omega)]

/-- A put grows the file to the byte that it writes, and never shrinks it. -/
theorem fputAt_length (file : List UInt8) (a : ℕ) (v : UInt8) :
    (fputAt file a v).length = max file.length (a + 1) := by
  rw [fputAt]
  split
  · rw [List.length_set]
    omega
  · rw [List.length_append, List.length_append, List.length_replicate, List.length_singleton]
    omega

/-! ## The process

What the process keeps of the file is the handle alone, and a death loses it: the bytes that were
put are the file's, since each put is flushed. -/

/-- What `fopen` may do: open a file that is there, and create one. -/
structure Env where
  opens : Bool := true
  creates : Bool := true
deriving DecidableEq

structure Store where
  -- The file, where there is one.
  disk : Option (List UInt8)
  -- `tried`, and whether `EEPROM_FP` is set.
  tried : Bool
  fp : Bool
  -- `eeprom_volatile`, and `eeprom_ram`.
  isVolatile : Bool
  ram : ℕ → UInt8

/-- A process that has not touched its settings. -/
def Store.fresh (disk : Option (List UInt8)) : Store where
  disk := disk
  tried := false
  fp := false
  isVolatile := false
  ram := fun _ => 0

/-- `eeprom_create_empty_file`, as far as `n` bytes. -/
def erased (n : ℕ) : List UInt8 := List.replicate n 0xFF

/-- `eeprom_fp`. -/
def eepromFp (e : Env) (s : Store) : Store :=
  if s.fp || s.tried then s
  else if e.opens && s.disk.isSome then { s with tried := true, fp := true }
  else if e.creates then { s with tried := true, fp := true, disk := some (erased maxEepromSize) }
  else { s with tried := true, isVolatile := true, ram := fun _ => 0xFF }

/-- The byte under an open file, or under the RAM that stands in for it. -/
def Store.byte (s : Store) (a : ℕ) : UInt8 :=
  if maxEepromSize ≤ a then 0xFF
  else if s.fp then fgetAt (s.disk.getD []) a
  else if s.isVolatile then s.ram a else 0xFF

/-- `eeprom_get_char`: the byte, and the store behind it. -/
def eepromGetChar (e : Env) (addr : UInt32) (s : Store) : UInt8 × Store :=
  ((eepromFp e s).byte addr.toNat, eepromFp e s)

/-- `eeprom_put_char`. -/
def eepromPutChar (e : Env) (addr : UInt32) (v : UInt8) (s : Store) : Store :=
  let t := eepromFp e s
  if maxEepromSize ≤ addr.toNat then t
  else if t.fp then { t with disk := t.disk.map fun file => fputAt file addr.toNat v }
  else if t.isVolatile then { t with ram := update t.ram addr.toNat v }
  else t

/-- `eeprom_close`. -/
def eepromClose (s : Store) : Store := { s with fp := false }

/-! ## Runs

A run mixes reads, puts, closes and deaths. `Orderly` says what a run must keep to: no access behind
a close, no `fopen` that fails, and no death while the file is being created. -/

inductive Label where
  | get (e : Env) (addr : UInt32)
  | put (e : Env) (addr : UInt32) (v : UInt8)
  -- The exit handler.
  | close
  -- The process dies, and another one starts.
  | restarts
  -- It dies while it creates the file, of which `n` bytes are there.
  | diesCreating (n : ℕ)
deriving DecidableEq

def step (s : Store) : Label → Option Store
  | .get e addr => some (eepromGetChar e addr s).2
  | .put e addr v => some (eepromPutChar e addr v s)
  | .close => some (eepromClose s)
  | .restarts => some (Store.fresh s.disk)
  | .diesCreating n => if !s.tried && n < maxEepromSize then some (Store.fresh (some (erased n))) else none

/-- What the file holds, as a process reads it that has it open. -/
def Store.view (s : Store) (a : ℕ) : UInt8 :=
  if maxEepromSize ≤ a then 0xFF else (s.disk.map fun file => fgetAt file a).getD 0xFF

/-- The process has the file open, or will have: one that is there can be opened, and one that is not
can be created. -/
def Opens (e : Env) (s : Store) : Prop :=
  s.fp = true ∨ s.tried = false ∧ (if s.disk.isSome then e.opens else e.creates) = true

instance (e : Env) (s : Store) : Decidable (Opens e s) := inferInstanceAs (Decidable (_ ∨ _))

/-- **An orderly step**: the file opens, nothing is touched once it is closed, and it is created whole. -/
def Orderly (s : Store) : Label → Prop
  | .get e _ => Opens e s
  | .put e _ _ => Opens e s
  | .close => True
  | .restarts => True
  | .diesCreating _ => False

instance (s : Store) (l : Label) : Decidable (Orderly s l) := by
  cases l <;> unfold Orderly <;> infer_instance

/-- A file of full length, and one that is there where the process has it open. -/
structure Whole (s : Store) : Prop where
  full : ∀ file ∈ s.disk, maxEepromSize ≤ file.length
  there : s.fp = true → s.disk.isSome = true

variable {s t : Store} {e : Env} {l : Label}

/-- A process that has not opened the file finds it whole, or finds none. -/
theorem whole_fresh {disk : Option (List UInt8)} (h : ∀ file ∈ disk, maxEepromSize ≤ file.length) :
    Whole (Store.fresh disk) := ⟨h, by rintro ⟨⟩⟩

/-! ## What a step does

Each operation is described by the memory that the file is: a read leaves it, and a put changes one
cell. -/

/-- The touch that opens the file: it is open behind it, and reads as before. -/
structure Touched (s t : Store) : Prop where
  whole : Whole t
  fp : t.fp = true
  view : t.view = s.view

/-- The first access opens the file, or creates it erased; a later one changes nothing. -/
theorem eepromFp_touched (h : Whole s) (hopens : Opens e s) : Touched s (eepromFp e s) := by
  obtain hfp | ⟨htried, hgrants⟩ := hopens
  · rw [eepromFp, hfp, Bool.true_or, if_pos rfl]
    exact ⟨h, hfp, rfl⟩
  cases hfp : s.fp with
  | true =>
    rw [eepromFp, hfp, Bool.true_or, if_pos rfl]
    exact ⟨h, hfp, rfl⟩
  | false =>
    rw [eepromFp, hfp, htried, Bool.or_false, if_neg (by decide)]
    cases hdisk : s.disk with
    | some file =>
      rw [hdisk] at hgrants
      have hopen : e.opens = true := hgrants
      rw [hopen, Option.isSome_some, Bool.and_true, if_pos rfl]
      refine ⟨⟨fun f hf => h.full f (hdisk.trans hf), fun _ => rfl⟩, rfl, ?_⟩
      funext a
      rw [Store.view, Store.view, hdisk]
    | none =>
      rw [hdisk] at hgrants
      have hcreate : e.creates = true := hgrants
      rw [hcreate, Option.isSome_none, Bool.and_false, if_neg (by decide), if_pos rfl]
      refine ⟨⟨?_, fun _ => rfl⟩, rfl, ?_⟩
      · rintro file ⟨⟩
        exact le_of_eq List.length_replicate.symm
      · funext a
        rw [Store.view, Store.view, hdisk]
        split
        · rfl
        · next ha =>
          change fgetAt (erased maxEepromSize) a = 0xFF
          rw [fgetAt, erased, List.getElem?_replicate, if_pos (not_le.1 ha)]
          rfl

/-- An open file is read as it is. -/
theorem Whole.byte (h : Whole s) (hfp : s.fp = true) (a : ℕ) : s.byte a = s.view a := by
  obtain ⟨file, hfile⟩ := Option.isSome_iff_exists.1 (h.there hfp)
  rw [Store.byte, Store.view, if_pos hfp, hfile]
  rfl

/-- A read answers the cell at its address. -/
theorem eepromGetChar_fst (h : Whole s) (hopens : Opens e s) (addr : UInt32) :
    (eepromGetChar e addr s).1 = s.view addr.toNat := by
  have htouched := eepromFp_touched h hopens
  rw [eepromGetChar, htouched.whole.byte htouched.fp, htouched.view]

/-- One byte in the file is one cell of the memory. -/
theorem Whole.fput {file : List UInt8} (h : Whole s) (hfile : s.disk = some file) {a : ℕ}
    (ha : a < maxEepromSize) (v : UInt8) :
    Whole { s with disk := s.disk.map fun file => fputAt file a v } ∧
      ({ s with disk := s.disk.map fun file => fputAt file a v } : Store).view = update s.view a v := by
  have hfull := h.full file hfile
  refine ⟨⟨?_, fun hfp => ?_⟩, ?_⟩
  · rw [hfile]
    rintro _ ⟨⟩
    rw [fputAt_length]
    omega
  · rw [Option.isSome_map]
    exact h.there hfp
  · funext b
    rw [Store.view, hfile]
    by_cases hb : b = a
    · rw [hb, Function.update_self, if_neg (not_le.2 ha)]
      change fgetAt (fputAt file a v) a = v
      rw [fputAt_view, if_pos rfl]
    · rw [Function.update_of_ne hb, Store.view, hfile]
      split
      · rfl
      · next hmax =>
        change fgetAt (fputAt file a v) b = fgetAt file b
        rw [fputAt_view, if_neg hb, if_neg (by omega)]

/-- The address that a put writes, if the EEPROM has it. -/
def putCell (addr : UInt32) (v : UInt8) : List (ℕ × UInt8) :=
  if maxEepromSize ≤ addr.toNat then [] else [(addr.toNat, v)]

/-- What a put leaves: the file, open, with the one cell changed. -/
theorem eepromPutChar_spec (h : Whole s) (hopens : Opens e s) (addr : UInt32) (v : UInt8) :
    Whole (eepromPutChar e addr v s) ∧ (eepromPutChar e addr v s).fp = true ∧
      (eepromPutChar e addr v s).view = Memory.replay (putCell addr v) s.view := by
  have htouched := eepromFp_touched h hopens
  rw [eepromPutChar, putCell]
  split
  · exact ⟨htouched.whole, htouched.fp, htouched.view⟩
  · next haddr =>
    rw [if_pos htouched.fp, ← htouched.view]
    obtain ⟨file, hfile⟩ := Option.isSome_iff_exists.1 (htouched.whole.there htouched.fp)
    obtain ⟨hwhole, hview⟩ := htouched.whole.fput hfile (not_le.1 haddr) v
    exact ⟨hwhole, htouched.fp, hview⟩

/-! ## The store is a memory

The bytes that a process puts are replayed onto the erased memory, and every read answers the
replay. -/

/-- The cells that a step writes. -/
def Label.cells : Label → List (ℕ × UInt8)
  | .put _ addr v => putCell addr v
  | _ => []

/-- The puts so far, in their order. -/
def record (_ : Store) (l : Label) (puts : List (ℕ × UInt8)) : List (ℕ × UInt8) := puts ++ l.cells

/-- **A step writes its cells**, and the file stays whole. A put writes the one cell, and reads,
closes, deaths and restarts write none. -/
theorem Whole.step (h : Whole s) (horderly : Orderly s l) (hstep : step s l = some t) :
    Whole t ∧ t.view = Memory.replay l.cells s.view := by
  cases l with
  | get e addr =>
    cases hstep
    have htouched := eepromFp_touched h horderly
    exact ⟨htouched.whole, htouched.view⟩
  | put e addr v =>
    cases hstep
    obtain ⟨hwhole, -, hview⟩ := eepromPutChar_spec h horderly addr v
    exact ⟨hwhole, hview⟩
  | close =>
    cases hstep
    exact ⟨⟨h.full, by rintro ⟨⟩⟩, rfl⟩
  | restarts =>
    cases hstep
    exact ⟨whole_fresh h.full, rfl⟩
  | diesCreating n => exact horderly.elim

/-- The file, behind the puts of a run that began in the state `s`. -/
structure Replays (s t : Store) (puts : List (ℕ × UInt8)) : Prop where
  whole : Whole t
  view : t.view = Memory.replay puts s.view

/-- From any whole store the memory at the end is the memory at the start with the puts of the run
replayed, in their order. -/
theorem reach_replays (h : Whole s) {puts : List (ℕ × UInt8)}
    (hrun : Reach (observe step record) (fun x l => Orderly x.1 l) (s, []) (t, puts)) : Replays s t puts := by
  refine Reach.invariant_observe Orderly (P := Replays s) hrun ⟨h, rfl⟩ ?_
  intro t puts l u h horderly hstep
  obtain ⟨hwhole, hview⟩ := h.whole.step horderly hstep
  refine ⟨hwhole, ?_⟩
  rw [hview, h.view, record, Memory.replay_append]

/-- **The store is a memory**: over a file of full length, or none yet, a byte reads in every orderly run as
it was put last, however often the process has died in between, and as the file had it where none was. A run
is orderly if every access finds the file open or opens it, if none comes behind the close of its process, and
if no process dies while it creates the file. -/
theorem reach_replay {disk : Option (List UInt8)} (hdisk : ∀ file ∈ disk, maxEepromSize ≤ file.length)
    {puts : List (ℕ × UInt8)}
    (hrun : Reach (observe step record) (fun x l => Orderly x.1 l) (Store.fresh disk, []) (s, puts))
    (hopens : Opens e s) (addr : UInt32) :
    (eepromGetChar e addr s).1 = Memory.replay puts (Store.fresh disk).view addr.toNat := by
  have h := reach_replays (whole_fresh hdisk) hrun
  rw [eepromGetChar_fst h.whole hopens, h.view]

/-- A byte is put, the process dies, and the next one reads it. -/
def putsOne : List Label := [.put {} 7 5, .restarts]

theorem reach_replay_one : ∃ s puts, Reach (observe step record) (fun x l => Orderly x.1 l)
    (Store.fresh none, []) (s, puts) ∧ puts = [(7, 5)] ∧ (eepromGetChar {} 7 s).1 = 5 := by
  have hput : ∃ x, Reach (observe step record) (fun x l => Orderly x.1 l) (Store.fresh none, []) x ∧
      (x.2 = [(7, 5)] ∧ Opens {} x.1) := Runs.exists_reach_of_exec putsOne (by decide +kernel)
  obtain ⟨⟨s, puts⟩, hrun, rfl, hopens⟩ := hput
  exact ⟨s, _, hrun, rfl, (reach_replay (by rintro file ⟨⟩) hrun hopens 7).trans (by decide)⟩

/-! ## The blocks

grblHAL keeps its settings in blocks with a checksum behind them. A block is put byte by byte, so a
death can come between any two of them; what a later start reads of the block and beside it is
settled by the puts that landed. -/

/-- The bytes of a block, put one after another. -/
def putAll (e : Env) : UInt32 → List UInt8 → Store → Store
  | _, [], s => s
  | dest, b :: bs, s => putAll e (dest + 1) bs (eepromPutChar e dest b s)

def getAll (e : Env) : UInt32 → ℕ → Store → List UInt8 × Store
  | _, 0, s => ([], s)
  | source, n + 1, s =>
    let (b, t) := eepromGetChar e source s
    let (bs, u) := getAll e (source + 1) n t
    (b :: bs, u)

-- `calc_checksum`, and `NVS_CRC_BYTES > 1`.
variable (calcChecksum : List UInt8 → UInt16) (wide : Bool)

def checksumLength : ℕ := if wide then 2 else 1

/-- The checksum as it is put: the low byte, and the high one. -/
def checksumBytes (c : UInt16) : List UInt8 :=
  UInt8.ofNat (c.toNat &&& 0xFF) :: if wide then [UInt8.ofNat (c.toNat >>> 8)] else []

/-- The checksum as it is read. -/
def checksumRead (bytes : List UInt8) : ℕ :=
  (bytes.getD 0 0).toNat ||| if wide then (bytes.getD 1 0).toNat <<< 8 else 0

/-- What `memcpy_to_eeprom` puts. -/
def blockBytes (source : List UInt8) (withChecksum : Bool) : List UInt8 :=
  source ++ if withChecksum then checksumBytes wide (calcChecksum source) else []

/-- `memcpy_to_eeprom`, which answers true. -/
def memcpyToEeprom (e : Env) (destination : UInt32) (source : List UInt8) (withChecksum : Bool) (s : Store) :
    Store :=
  putAll e destination (blockBytes calcChecksum wide source withChecksum) s

/-- What a block that was read says: its data, and whether the checksum behind them is theirs. -/
def verified (size : ℕ) (block : List UInt8) : List UInt8 × Bool :=
  (block.take size, (calcChecksum (block.take size)).toNat == checksumRead wide (block.drop size))

/-- `memcpy_from_eeprom`. -/
def memcpyFromEeprom (e : Env) (source : UInt32) (size : ℕ) (withChecksum : Bool) (s : Store) :
    List UInt8 × Bool :=
  if withChecksum then
    let (data, t) := getAll e source size s
    let (stored, _) := getAll e (source + UInt32.ofNat size) (checksumLength wide) t
    (data, (calcChecksum data).toNat == checksumRead wide stored)
  else ((getAll e source size s).1, true)

variable {calcChecksum wide}

/-- A checksum reads back, where it has the room. -/
theorem checksumRead_bytes {c : UInt16} (h : wide = true ∨ c.toNat < 256) :
    checksumRead wide (checksumBytes wide c) = c.toNat := by
  have hlow : c.toNat &&& 0xFF = c.toNat % 256 := Nat.and_two_pow_sub_one_eq_mod c.toNat 8
  have hmax := c.toNat_lt
  cases wide with
  | true =>
    have hhigh : c.toNat >>> 8 = c.toNat / 256 := Nat.shiftRight_eq_div_pow c.toNat 8
    change (UInt8.ofNat (c.toNat &&& 0xFF)).toNat ||| (UInt8.ofNat (c.toNat >>> 8)).toNat <<< 8 = c.toNat
    rw [hlow, hhigh, UInt8.toNat_ofNat', UInt8.toNat_ofNat', Nat.or_comm,
      ← Nat.shiftLeft_add_eq_or_of_lt (by omega), Nat.shiftLeft_eq]
    omega
  | false =>
    change (UInt8.ofNat (c.toNat &&& 0xFF)).toNat ||| 0 = c.toNat
    have hsmall : c.toNat < 256 := by simpa using h
    rw [Nat.or_zero, hlow, UInt8.toNat_ofNat']
    omega

/-- One byte or two, by the build's choice of checksum. -/
theorem checksumBytes_length (c : UInt16) : (checksumBytes wide c).length = checksumLength wide := by
  cases wide <;> rfl

/-- An address inside the file does not wrap at its next byte. -/
theorem toNat_succ {a : UInt32} (h : a.toNat < maxEepromSize) : (a + 1).toNat = a.toNat + 1 := by
  have hmax : maxEepromSize = 4096 := rfl
  have hone : (1 : UInt32).toNat = 1 := rfl
  rw [UInt32.toNat_add, hone]
  omega

/-- What a store has that is open, or will be. -/
structure Ready (e : Env) (s : Store) : Prop where
  whole : Whole s
  opens : Opens e s

/-- A block is written as a block of the memory. -/
theorem putAll_spec {dest : UInt32} {bs : List UInt8} (h : Ready e s)
    (hfits : dest.toNat + bs.length ≤ maxEepromSize) :
    Ready e (putAll e dest bs s) ∧ (putAll e dest bs s).view = Memory.write dest.toNat bs s.view := by
  induction bs generalizing dest s with
  | nil => exact ⟨h, rfl⟩
  | cons b bs ih =>
    rw [List.length_cons] at hfits
    obtain ⟨hwhole, hfp, hview⟩ := eepromPutChar_spec h.whole h.opens dest b
    have hdest : (dest + 1).toNat = dest.toNat + 1 := toNat_succ (by omega)
    obtain ⟨hready, hrest⟩ := ih ⟨hwhole, .inl hfp⟩ (by rw [hdest]; omega)
    refine ⟨hready, ?_⟩
    rw [putAll, hrest, hview, hdest, putCell, if_neg (by omega)]
    rfl

/-- A block is read as one. -/
theorem getAll_spec (source : UInt32) (n : ℕ) (h : Ready e s) (hfits : source.toNat + n ≤ maxEepromSize) :
    (getAll e source n s).1 = Memory.read source.toNat n s.view ∧ Ready e (getAll e source n s).2 ∧
      (getAll e source n s).2.view = s.view := by
  induction n generalizing source s with
  | zero => exact ⟨rfl, h, rfl⟩
  | succ n ih =>
    have htouched := eepromFp_touched h.whole h.opens
    have hsource : (source + 1).toNat = source.toNat + 1 := toNat_succ (by omega)
    obtain ⟨hdata, hready, hview⟩ := ih (source + 1)
      (s := eepromFp e s) ⟨htouched.whole, .inl htouched.fp⟩ (by rw [hsource]; omega)
    refine ⟨?_, hready, hview.trans htouched.view⟩
    change (eepromGetChar e source s).1 :: (getAll e (source + 1) n (eepromFp e s)).1 = _
    rw [eepromGetChar_fst h.whole h.opens, hdata, htouched.view, hsource, Nat.add_comm n 1,
      Memory.read_add]
    rfl

/-- A block is read in two pieces, its bytes and its checksum; over the memory it is one read, split
where the bytes end. -/
theorem memcpyFromEeprom_eq {source : UInt32} {size : ℕ} (h : Ready e s)
    (hfits : source.toNat + size + checksumLength wide ≤ maxEepromSize) :
    memcpyFromEeprom calcChecksum wide e source size true s = verified calcChecksum wide size
      (Memory.read source.toNat (size + checksumLength wide) s.view) := by
  have hmax : maxEepromSize = 4096 := rfl
  obtain ⟨hdata, hready, hview⟩ := getAll_spec source size h (by omega)
  have hsize : (source + UInt32.ofNat size).toNat = source.toNat + size := by
    rw [UInt32.toNat_add, UInt32.toNat_ofNat']
    omega
  obtain ⟨hstored, -, -⟩ := getAll_spec (source + UInt32.ofNat size) (checksumLength wide) hready
    (by rw [hsize]; omega)
  rw [memcpyFromEeprom, if_pos rfl, verified, Memory.read_add]
  rw [List.take_left' (Memory.read_length _ _ _), List.drop_left' (Memory.read_length _ _ _)]
  dsimp only
  rw [hstored, hdata, hview, hsize]

/-- In every orderly run the file is whole: 4096 bytes or more. -/
theorem reach_whole {disk : Option (List UInt8)} (hdisk : ∀ file ∈ disk, maxEepromSize ≤ file.length)
    (hrun : Reach step Orderly (Store.fresh disk) s) : Whole s :=
  hrun.invariant (whole_fresh hdisk) fun _ _ _ h horderly hstep => (h.step horderly hstep).1

variable {u : Store} {e' : Env}

/-- **A block behind a death**: a write of a block that was cut off after `k` of its bytes leaves, through
any deaths and any traffic beside it, the new block as far as it went and the old one behind; that is
what is read, and it is good where the checksum of these data is what stands behind them. A write that
was not cut off reads back as it was written, and good. Beside the block every cell holds what the traffic
put there, and what it held before where it put nothing. -/
theorem block_after_death {disk : Option (List UInt8)} (hdisk : ∀ file ∈ disk, maxEepromSize ≤ file.length)
    (hbefore : Reach step Orderly (Store.fresh disk) s) (hready : Opens e s) (destination : UInt32)
    (source : List UInt8) (hwide : wide = true ∨ (calcChecksum source).toNat < 256)
    (hfits : destination.toNat + (blockBytes calcChecksum wide source true).length ≤ maxEepromSize) (k : ℕ)
    {puts : List (ℕ × UInt8)}
    (hafter : Reach (observe step record) (fun x l => Orderly x.1 l)
      (putAll e destination ((blockBytes calcChecksum wide source true).take k) s, []) (u, puts))
    (hbeside : ∀ p ∈ puts, p.1 < destination.toNat ∨
      destination.toNat + (blockBytes calcChecksum wide source true).length ≤ p.1)
    (hopens : Opens e' u) :
    memcpyFromEeprom calcChecksum wide e' destination source.length true u =
        verified calcChecksum wide source.length
          ((blockBytes calcChecksum wide source true).take k ++ (Memory.read destination.toNat
            (blockBytes calcChecksum wide source true).length s.view).drop k) ∧
      ((blockBytes calcChecksum wide source true).length ≤ k →
        memcpyFromEeprom calcChecksum wide e' destination source.length true u = (source, true)) ∧
      ∀ a, a < destination.toNat ∨ destination.toNat + (blockBytes calcChecksum wide source true).length ≤ a →
        u.view a = Memory.replay puts s.view a := by
  have hlength : (blockBytes calcChecksum wide source true).length = source.length + checksumLength wide := by
    rw [blockBytes, if_pos rfl, List.length_append, checksumBytes_length]
  have htake : ((blockBytes calcChecksum wide source true).take k).length ≤
      (blockBytes calcChecksum wide source true).length := List.length_take_le' _ _
  have hroom : destination.toNat + ((blockBytes calcChecksum wide source true).take k).length ≤ maxEepromSize := by
    omega
  obtain ⟨hput, hview⟩ := putAll_spec ⟨reach_whole hdisk hbefore, hready⟩ hroom
  obtain ⟨hwhole, hreplay⟩ := reach_replays hput.whole hafter
  rw [hview] at hreplay
  have hread : Memory.read destination.toNat (blockBytes calcChecksum wide source true).length u.view =
      Memory.read destination.toNat (blockBytes calcChecksum wide source true).length
        (Memory.write destination.toNat ((blockBytes calcChecksum wide source true).take k) s.view) := by
    refine Memory.read_congr fun i hi => ?_
    rw [hreplay, Memory.replay_of_not_mem]
    intro p hp hcell
    have hoff := hbeside p hp
    omega
  have hblock : memcpyFromEeprom calcChecksum wide e' destination source.length true u =
      verified calcChecksum wide source.length
        ((blockBytes calcChecksum wide source true).take k ++ (Memory.read destination.toNat
          (blockBytes calcChecksum wide source true).length s.view).drop k) := by
    have hfits : destination.toNat + source.length + checksumLength wide ≤ maxEepromSize := by omega
    rw [memcpyFromEeprom_eq ⟨hwhole, hopens⟩ hfits, ← hlength, hread, Memory.read_write_take]
  refine ⟨hblock, fun hall => ?_, fun a ha => ?_⟩
  · rw [hblock, List.take_of_length_le hall,
      List.drop_of_length_le (by rw [Memory.read_length]; exact hall), List.append_nil, verified, blockBytes,
      if_pos rfl, List.take_left' rfl, List.drop_left' rfl, checksumRead_bytes hwide, beq_self_eq_true]
  · rw [hreplay]
    exact Memory.replay_congr (Memory.write_outside (by omega))

/-- A checksum for the tests. -/
def sum (data : List UInt8) : UInt16 := data.foldl (fun n b => n + b.toUInt16) 0

/-- Two of three bytes of a first block are there when the process dies; the next one puts a byte elsewhere
and reads the block. -/
theorem block_after_death_two :
    ∃ u, Reach (observe step record) (fun x l => Orderly x.1 l) (putAll {} 10 [1, 2] (Store.fresh none), [])
        (u, [(100, 7)]) ∧
      memcpyFromEeprom sum true {} 10 3 true u = ([1, 2, 0xFF], false) ∧ u.view 100 = 7 := by
  have hnone : ∀ file ∈ (none : Option (List UInt8)), maxEepromSize ≤ file.length := by rintro file ⟨⟩
  have hdies : ∃ x, Reach (observe step record) (fun x l => Orderly x.1 l)
      (putAll {} 10 ((blockBytes sum true [1, 2, 3] true).take 2) (Store.fresh none), []) x ∧
      (x.2 = [(100, 7)] ∧ Opens {} x.1) :=
    Runs.exists_reach_of_exec [.restarts, .put {} 100 7] (by decide +kernel)
  obtain ⟨⟨u, puts⟩, hafter, rfl, hopens⟩ := hdies
  have hbeside : ∀ p ∈ [(100, (7 : UInt8))], p.1 < (10 : UInt32).toNat ∨
      (10 : UInt32).toNat + (blockBytes sum true [1, 2, 3] true).length ≤ p.1 := by decide
  obtain ⟨hread, -, hrest⟩ := block_after_death hnone .refl (by decide) 10 [1, 2, 3] (.inl rfl) (by decide) 2
    hafter hbeside hopens
  exact ⟨u, hafter, hread.trans (by decide +kernel), (hrest 100 (.inr (by decide))).trans (by decide +kernel)⟩

end Glowforge.Nvs
