import Dive.Adreno.Structures
import Dive.Hierarchy.EventReads
import Mathlib.Algebra.GroupWithZero.Nat

/-!
# The sizes of the packet structures

* `adrenoPm4`: the packets of `adreno_pm4.xml` that the readers use; bit fields and their types,
  which do not change a size, are left out.
* **`bytes_generated`**: the generator writes structures of the sizes that the readers assume.
-/

namespace Dive.Adreno

open Header

/-- The packets. -/
def adrenoPm4 : Database where
  enums := [
    { name := "adreno_pm4_type3_packets"
      values := [
        ("CP_DRAW_INDX", some 0x22), ("CP_DRAW_INDX_OFFSET", some 0x38),
        ("CP_DRAW_INDIRECT", some 0x28), ("CP_DRAW_INDX_INDIRECT", some 0x29),
        ("CP_DRAW_INDIRECT_MULTI", some 0x2a), ("CP_DRAW_AUTO", some 0x24),
        ("CP_EXEC_CS_INDIRECT", some 0x41), ("CP_EXEC_CS", some 0x33), ("CP_BLIT", some 0x2c),
        ("CP_EVENT_WRITE", some 0x46), ("CP_SET_MARKER", some 0x65), ("CP_SET_AMBLE", some 0x55),
        ("CP_SET_DRAW_STATE", some 0x43)] },
    { name := "a6xx_draw_indirect_opcode", inRoot := false
      values := [
        ("INDIRECT_OP_NORMAL", some 2), ("INDIRECT_OP_INDEXED", some 4),
        ("INDIRECT_OP_INDIRECT_COUNT", some 6),
        ("INDIRECT_OP_INDIRECT_COUNT_INDEXED", some 7)] }]
  domains := [
    { name := "CP_DRAW_INDX"
      registers := [
        { name := "0", offset := 0 }, { name := "1", offset := 1 }, { name := "2", offset := 2 },
        { name := "3", offset := 3 }, { name := "4", offset := 4 }] },
    { name := "CP_DRAW_INDX_OFFSET"
      registers := [
        { name := "0", offset := 0 }, { name := "1", offset := 1 }, { name := "2", offset := 2 },
        { name := "3", offset := 3 }, { name := "4", offset := 4 }, { name := "5", offset := 5 }]
      stripes := [
        { varset := "chip", variants := "A5XX-"
          registers := [
            { name := "INDX_BASE", offset := 4, is64 := true, type := some "address" },
            { name := "6", offset := 6 }] }] },
    { name := "CP_DRAW_INDIRECT"
      registers := [{ name := "0", offset := 0 }]
      stripes := [
        { varset := "chip", variants := "A4XX", registers := [{ name := "1", offset := 1 }] },
        { varset := "chip", variants := "A5XX-"
          registers := [
            { name := "1", offset := 1 }, { name := "2", offset := 2 },
            { name := "INDIRECT", offset := 1, is64 := true, type := some "address" }] }] },
    { name := "CP_DRAW_INDX_INDIRECT"
      registers := [{ name := "0", offset := 0 }]
      stripes := [
        { varset := "chip", variants := "A4XX"
          registers := [
            { name := "1", offset := 1 }, { name := "2", offset := 2 },
            { name := "3", offset := 3 }] },
        { varset := "chip", variants := "A5XX-"
          registers := [
            { name := "1", offset := 1 }, { name := "2", offset := 2 },
            { name := "INDX_BASE", offset := 1, is64 := true, type := some "address" },
            { name := "3", offset := 3 }, { name := "4", offset := 4 },
            { name := "5", offset := 5 },
            { name := "INDIRECT", offset := 4, is64 := true, type := some "address" }] }] },
    { name := "CP_DRAW_INDIRECT_MULTI"
      registers := [
        { name := "0", offset := 0 }, { name := "1", offset := 1 },
        { name := "DRAW_COUNT", offset := 2, type := some "uint" }]
      stripes := [
        { varset := "a6xx_draw_indirect_opcode", variants := "INDIRECT_OP_NORMAL"
          registers := [
            { name := "INDIRECT", offset := 3, is64 := true, type := some "address" },
            { name := "STRIDE", offset := 5, type := some "uint" }] },
        { varset := "a6xx_draw_indirect_opcode", variants := "INDIRECT_OP_INDEXED"
          pfx := some "INDEXED"
          registers := [
            { name := "INDEX", offset := 3, is64 := true, type := some "address" },
            { name := "MAX_INDICES", offset := 5, type := some "uint" },
            { name := "INDIRECT", offset := 6, is64 := true, type := some "address" },
            { name := "STRIDE", offset := 8, type := some "uint" }] },
        { varset := "a6xx_draw_indirect_opcode", variants := "INDIRECT_OP_INDIRECT_COUNT"
          pfx := some "INDIRECT"
          registers := [
            { name := "INDIRECT", offset := 3, is64 := true, type := some "address" },
            { name := "INDIRECT_COUNT", offset := 5, is64 := true, type := some "address" },
            { name := "STRIDE", offset := 7, type := some "uint" }] },
        { varset := "a6xx_draw_indirect_opcode", variants := "INDIRECT_OP_INDIRECT_COUNT_INDEXED"
          pfx := some "INDIRECT_INDEXED"
          registers := [
            { name := "INDEX", offset := 3, is64 := true, type := some "address" },
            { name := "MAX_INDICES", offset := 5, type := some "uint" },
            { name := "INDIRECT", offset := 6, is64 := true, type := some "address" },
            { name := "INDIRECT_COUNT", offset := 8, is64 := true, type := some "address" },
            { name := "STRIDE", offset := 10, type := some "uint" }] }] },
    { name := "CP_DRAW_AUTO"
      registers := [
        { name := "0", offset := 0 }, { name := "1", offset := 1 },
        { name := "NUM_VERTICES_BASE", offset := 2, is64 := true, type := some "address" },
        { name := "4", offset := 4 }, { name := "5", offset := 5 }] },
    { name := "CP_EXEC_CS_INDIRECT"
      registers := [{ name := "0", offset := 0 }]
      stripes := [
        { varset := "chip", variants := "A4XX"
          registers := [
            { name := "ADDR", offset := 1, type := some "address" },
            { name := "2", offset := 2 }] },
        { varset := "chip", variants := "A5XX-"
          registers := [
            { name := "ADDR", offset := 1, is64 := true, type := some "address" },
            { name := "3", offset := 3 }] }] },
    { name := "CP_EXEC_CS"
      registers := [
        { name := "0", offset := 0 }, { name := "1", offset := 1 }, { name := "2", offset := 2 },
        { name := "3", offset := 3 }] },
    { name := "CP_BLIT"
      registers := [
        { name := "0", offset := 0 }, { name := "1", offset := 1 }, { name := "2", offset := 2 },
        { name := "3", offset := 3 }, { name := "4", offset := 4 }] },
    { name := "CP_EVENT_WRITE"
      registers := [
        { name := "0", offset := 0 },
        { name := "ADDR", offset := 1, is64 := true, type := some "waddress" },
        { name := "3", offset := 3 }] },
    { name := "CP_SET_MARKER"
      stripes := [
        { varset := "chip", variants := "A6XX-A7XX", registers := [{ name := "0", offset := 0 }] },
        { varset := "chip", variants := "A8XX-", registers := [{ name := "0", offset := 0 }] }] },
    { name := "CP_SET_AMBLE"
      registers := [
        { name := "ADDR", offset := 0, is64 := true, type := some "address" },
        { name := "2", offset := 2 }] },
    { name := "CP_SET_DRAW_STATE"
      arrays := [
        { name := "", offset := 0, stride := 3, length := 100
          children := [
            .register { name := "0", offset := 0 },
            .register { name := "ADDR", offset := 1, is64 := true, type := some "address" },
            .register { name := "1", offset := 1 },
            .register { name := "2", offset := 2 }] }] }]

/-- The name of a structure. -/
def structName : PacketType → String
  | .CP_DRAW_INDX => "PM4_CP_DRAW_INDX"
  | .CP_DRAW_INDX_OFFSET => "PM4_CP_DRAW_INDX_OFFSET"
  | .CP_DRAW_INDIRECT => "PM4_CP_DRAW_INDIRECT"
  | .CP_DRAW_INDX_INDIRECT => "PM4_CP_DRAW_INDX_INDIRECT"
  | .CP_DRAW_INDIRECT_MULTI_INDIRECT_OP_NORMAL => "PM4_CP_DRAW_INDIRECT_MULTI_INDIRECT_OP_NORMAL"
  | .CP_DRAW_INDIRECT_MULTI_INDEXED => "PM4_CP_DRAW_INDIRECT_MULTI_INDEXED"
  | .CP_DRAW_INDIRECT_MULTI_INDIRECT => "PM4_CP_DRAW_INDIRECT_MULTI_INDIRECT"
  | .CP_DRAW_INDIRECT_MULTI_INDIRECT_INDEXED => "PM4_CP_DRAW_INDIRECT_MULTI_INDIRECT_INDEXED"
  | .CP_DRAW_AUTO => "PM4_CP_DRAW_AUTO"
  | .CP_EXEC_CS_INDIRECT => "PM4_CP_EXEC_CS_INDIRECT"
  | .CP_EXEC_CS => "PM4_CP_EXEC_CS"
  | .CP_BLIT => "PM4_CP_BLIT"
  | .CP_EVENT_WRITE => "PM4_CP_EVENT_WRITE"
  | .CP_SET_MARKER => "PM4_CP_SET_MARKER"
  | .CP_SET_AMBLE => "PM4_CP_SET_AMBLE"
  | .CP_SET_DRAW_STATE => "PM4_CP_SET_DRAW_STATE"

/-- `sizeof`, with the header and the array. -/
def Header.PacketStruct.bytes (packet : PacketStruct) : ℕ :=
  4 + packet.arraySize * (packet.members.map (·.body.bytes)).sum

/-- The structures that are written, with their sizes. -/
def packetSizes (db : Database) : Option (List (String × ℕ)) :=
  (outputPackets db).map fun packets => packets.map fun packet => (packet.name, packet.bytes)

theorem packetSizes_adrenoPm4 : packetSizes adrenoPm4 = some [
    ("PM4_CP_DRAW_INDX", 24), ("PM4_CP_DRAW_INDX_OFFSET", 32), ("PM4_CP_DRAW_INDIRECT", 16),
    ("PM4_CP_DRAW_INDX_INDIRECT", 28), ("PM4_CP_DRAW_INDIRECT_MULTI_INDIRECT_OP_NORMAL", 28),
    ("PM4_CP_DRAW_INDIRECT_MULTI_INDEXED", 40), ("PM4_CP_DRAW_INDIRECT_MULTI_INDIRECT", 36),
    ("PM4_CP_DRAW_INDIRECT_MULTI_INDIRECT_INDEXED", 48), ("PM4_CP_DRAW_AUTO", 28),
    ("PM4_CP_EXEC_CS_INDIRECT", 20), ("PM4_CP_EXEC_CS", 20), ("PM4_CP_BLIT", 24),
    ("PM4_CP_EVENT_WRITE", 20), ("PM4_CP_SET_MARKER", 8), ("PM4_CP_SET_AMBLE", 16),
    ("PM4_CP_SET_DRAW_STATE", 1204)] := by
  decide +kernel

/-- **The generated structures have the sizes that the readers assume.** -/
theorem bytes_generated (type : PacketType) :
    ∃ sizes, packetSizes adrenoPm4 = some sizes ∧ (structName type, type.bytes) ∈ sizes := by
  refine ⟨_, packetSizes_adrenoPm4, ?_⟩
  cases type <;> simp [structName, PacketType.bytes]

end Dive.Adreno
