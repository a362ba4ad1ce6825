import AlphaPing.Library.Tables
import AlphaPing.Protocol.Messages

/-!
# Blocks of five minutes

`telemetry_blocks_5m` and `check_result_blocks_5m` have one layout: a row holds the five minutes
of a block, and each minute has a payload, an identifier and a payload hash. The only statement
that writes these three columns writes them together, so a slot is one optional value here.

The upsert fills a slot once. A statement that meets a slot with other content, or a block of
another workspace, changes no row and reports no error.
-/

namespace AlphaPing.Ingest.Blocks

open Protocol Library.Tables

def blockStart (nominalMinuteMs : ℤ) : ℤ := nominalMinuteMs / 300000 * 300000

instance neZero_five : NeZero 5 := ⟨by decide⟩

def slotOf (nominalMinuteMs : ℤ) : Fin 5 :=
  ⟨((nominalMinuteMs - blockStart nominalMinuteMs) / 60000).toNat, by unfold blockStart; omega⟩

structure SlotColumns (Payload : Type) where
  payload : Payload
  id : Bytes
  payloadHash : Bytes

structure Block (Payload : Type) where
  resourcePk : ℕ
  workspacePk : ℕ
  blockStart : ℤ
  slots : Fin 5 → Option (SlotColumns Payload)
  schemaVersion : ℕ

variable {Payload : Type}

/-- The primary key. -/
def Block.key (block : Block Payload) : ℕ × ℤ := (block.resourcePk, block.blockStart)

def Block.setSlot (block : Block Payload) (slot : Fin 5) (columns : SlotColumns Payload)
    (schemaVersion : ℕ) : Block Payload :=
  { block with
    slots := fun other ↦ if other = slot then some columns else block.slots other
    schemaVersion := schemaVersion }

/-- What an upsert writes: the columns of one minute of one resource. -/
structure SlotWrite (Payload : Type) where
  resourcePk : ℕ
  workspacePk : ℕ
  nominalMinuteMs : ℤ
  columns : SlotColumns Payload
  schemaVersion : ℕ

/-- The block as the `INSERT` creates it. -/
def SlotWrite.block (write : SlotWrite Payload) : Block Payload where
  resourcePk := write.resourcePk
  workspacePk := write.workspacePk
  blockStart := Blocks.blockStart write.nominalMinuteMs
  slots slot := if slot = slotOf write.nominalMinuteMs then some write.columns else none
  schemaVersion := write.schemaVersion

/-- The `WHERE` clause of the conflict branch. -/
def SlotWrite.admits (write : SlotWrite Payload) (block : Block Payload) : Bool :=
  block.workspacePk == write.workspacePk &&
    (block.slots (slotOf write.nominalMinuteMs)).all fun held ↦
      held.id == write.columns.id && held.payloadHash == write.columns.payloadHash

/-- The `DO UPDATE`; `version` is the schema version it stores. -/
def SlotWrite.update (write : SlotWrite Payload) (version : ℕ → ℕ) (block : Block Payload) :
    Block Payload :=
  block.setSlot (slotOf write.nominalMinuteMs) write.columns (version block.schemaVersion)

/-- The upsert. -/
def SlotWrite.perform (write : SlotWrite Payload) (version : ℕ → ℕ)
    (blocks : List (Block Payload)) : List (Block Payload) :=
  upsert Block.key write.admits (write.update version) write.block blocks

/-- The number of rows that the upsert inserts or changes. -/
def SlotWrite.changes (write : SlotWrite Payload) (blocks : List (Block Payload)) : ℕ :=
  upsertChanges Block.key write.admits write.block blocks

/-- The upsert finds its slot empty, or filled with the same identifier and hash. -/
def SlotWrite.Writable (write : SlotWrite Payload) (blocks : List (Block Payload)) : Prop :=
  (lookup Block.key write.block.key blocks).all write.admits = true

instance (write : SlotWrite Payload) (blocks : List (Block Payload)) :
    Decidable (write.Writable blocks) :=
  inferInstanceAs (Decidable (_ = true))

/-- `SELECT … WHERE workspace_pk = ? AND … = ? AND block_start = ?`, of the columns of a slot. -/
def readSlot (blocks : List (Block Payload)) (resourcePk workspacePk : ℕ)
    (nominalMinuteMs : ℤ) : Option (SlotColumns Payload) :=
  match lookup Block.key (resourcePk, blockStart nominalMinuteMs) blocks with
  | none => none
  | some block =>
    if block.workspacePk = workspacePk then block.slots (slotOf nominalMinuteMs) else none

/-- The slot of the minute holds exactly this identifier and hash. -/
def Holds (blocks : List (Block Payload)) (resourcePk workspacePk : ℕ) (nominalMinuteMs : ℤ)
    (id payloadHash : Bytes) : Prop :=
  ∃ columns, readSlot blocks resourcePk workspacePk nominalMinuteMs = some columns ∧
    columns.id = id ∧ columns.payloadHash = payloadHash

/-- A slot holds one identifier and one hash, and its block belongs to one workspace. -/
theorem Holds.eq {blocks : List (Block Payload)} {resourcePk workspacePk workspacePk' : ℕ}
    {nominalMinuteMs : ℤ} {id id' payloadHash payloadHash' : Bytes}
    (h : Holds blocks resourcePk workspacePk nominalMinuteMs id payloadHash)
    (h' : Holds blocks resourcePk workspacePk' nominalMinuteMs id' payloadHash') :
    id = id' ∧ payloadHash = payloadHash' := by
  obtain ⟨columns, hread, rfl, rfl⟩ := h
  obtain ⟨columns', hread', rfl, rfl⟩ := h'
  unfold readSlot at hread hread'
  cases hfound : lookup Block.key (resourcePk, blockStart nominalMinuteMs) blocks with
  | none => simp [hfound] at hread
  | some block =>
    simp only [hfound, ite_eq_iff, reduceCtorEq, and_false, or_false] at hread hread'
    obtain rfl := Option.some.inj (hread.2.symm.trans hread'.2)
    exact ⟨rfl, rfl⟩

section Perform

variable {write : SlotWrite Payload} {version : ℕ → ℕ} {blocks : List (Block Payload)}

theorem SlotWrite.Writable.admits (h : write.Writable blocks) {block : Block Payload}
    (hfound : lookup Block.key write.block.key blocks = some block) :
    write.admits block = true := by
  rw [SlotWrite.Writable, hfound] at h
  exact h

theorem key_update (block : Block Payload) : (write.update version block).key = block.key :=
  rfl

theorem readSlot_perform_other_key {resourcePk workspacePk : ℕ} {nominalMinuteMs : ℤ}
    (hkey : (resourcePk, blockStart nominalMinuteMs) ≠ write.block.key) :
    readSlot (write.perform version blocks) resourcePk workspacePk nominalMinuteMs =
      readSlot blocks resourcePk workspacePk nominalMinuteMs := by
  rw [readSlot, SlotWrite.perform, lookup_upsert_other key_update hkey, ← readSlot]

theorem holds_perform {resourcePk workspacePk : ℕ} {nominalMinuteMs : ℤ} {id payloadHash : Bytes}
    (h : Holds blocks resourcePk workspacePk nominalMinuteMs id payloadHash) :
    Holds (write.perform version blocks) resourcePk workspacePk nominalMinuteMs id payloadHash := by
  by_cases hkey : (resourcePk, blockStart nominalMinuteMs) = write.block.key
  · obtain ⟨columns, hread, hid, hhash⟩ := h
    unfold readSlot at hread
    rw [hkey] at hread
    cases hfound : lookup Block.key write.block.key blocks with
    | none => simp [hfound] at hread
    | some block =>
      simp only [hfound, ite_eq_iff, reduceCtorEq, and_false, or_false] at hread
      obtain ⟨hworkspace, hslot⟩ := hread
      unfold Holds readSlot
      rw [hkey, SlotWrite.perform, lookup_upsert_self key_update, hfound]
      dsimp only
      split
      · next hadmits =>
        by_cases hsame : slotOf nominalMinuteMs = slotOf write.nominalMinuteMs
        · -- the write meets a filled slot, so it brings the same identifier and hash
          rw [SlotWrite.admits, ← hsame, hslot] at hadmits
          simp only [Option.all_some, Bool.and_eq_true, beq_iff_eq] at hadmits
          refine ⟨write.columns, ?_, hadmits.2.1 ▸ hid, hadmits.2.2 ▸ hhash⟩
          simp [SlotWrite.update, Block.setSlot, hsame, hworkspace]
        · refine ⟨columns, ?_, hid, hhash⟩
          simp [SlotWrite.update, Block.setSlot, hsame, hworkspace, hslot]
      · exact ⟨columns, by simp [hslot], hid, hhash⟩
  · unfold Holds
    rw [readSlot_perform_other_key hkey]
    exact h

theorem readSlot_perform_self (h : write.Writable blocks) :
    readSlot (write.perform version blocks) write.resourcePk write.workspacePk
      write.nominalMinuteMs = some write.columns := by
  have hkey : (write.resourcePk, blockStart write.nominalMinuteMs) = write.block.key := rfl
  rw [readSlot, hkey, SlotWrite.perform, lookup_upsert_self key_update]
  cases hfound : lookup Block.key write.block.key blocks with
  | none => simp [SlotWrite.block]
  | some block =>
    have hadmits := h.admits hfound
    have hworkspace : block.workspacePk = write.workspacePk := by
      simp only [SlotWrite.admits, Bool.and_eq_true, beq_iff_eq] at hadmits
      exact hadmits.1
    simp [hadmits, SlotWrite.update, Block.setSlot, hworkspace]

theorem holds_perform_self (h : write.Writable blocks) :
    Holds (write.perform version blocks) write.resourcePk write.workspacePk
      write.nominalMinuteMs write.columns.id write.columns.payloadHash :=
  ⟨write.columns, readSlot_perform_self h, rfl, rfl⟩

theorem changes_ne_zero (h : write.Writable blocks) : write.changes blocks ≠ 0 :=
  upsertChanges_ne_zero fun _ hfound ↦ h.admits hfound

end Perform

end AlphaPing.Ingest.Blocks
