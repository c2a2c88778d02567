/-
Drawing on the machine. The sprite lies in memory from the index on, around the
top if need be, and goes where two registers say; its pixels are turned over,
and `VF` tells whether one of them went out. The coordinates are read before
`VF` is written, so either may be `VF` itself.

Drawing the same sprite again takes it back, unless a coordinate was in `VF` and
is lost. `VF` then tells whether the first time a pixel was lit.
-/
import Chip8.Proofs.Instruction
import Chip8.Proofs.Memory
import Chip8.Proofs.Screen.Drawings

namespace Chip8.Machine

variable {m n : Machine} {x y : Register} {height : Nibble}

/-- The bytes of a sprite in memory: so many from the index on. -/
def spriteRows (m : Machine) (height : Nibble) : List Int :=
  (List.range height.toNat).map fun k => (m.memory.get (m.index + BitVec.ofNat 12 k)).toNat

/-- The sprite at the index, where the coordinates of two registers put it. -/
def sprite (m : Machine) (x y : Register) (height : Nibble) : Drawing :=
  ⟨m.value x, m.value y, m.spriteRows height⟩

/-- What drawing a sprite leaves: the pixels that it sets are turned over, `VF`
tells whether one of them was lit, and nothing else is changed. -/
structure Draws (m m' : Machine) (x y : Register) (height : Nibble) : Prop where
  pixels : ∀ px < 64, ∀ py < 32, m'.screen.lit px py =
    (m.screen.lit px py ^^ Screen.sets (m.value x) (m.value y) (m.spriteRows height) px py)
  flag_bit : m'.value .flag = 0 ∨ m'.value .flag = 1
  collision : m'.value .flag = 1 ↔
    ∃ px < 64, ∃ py < 32, m.screen.lit px py = true ∧ m'.screen.lit px py = false
  empty : height = 0 → m'.screen = m.screen ∧ m'.value .flag = 0
  registers : ∀ r, r ≠ .flag → m'.register r = m.register r
  rest : m' = { m with screen := m'.screen, registers := m'.registers }

/-! ## One sprite -/

theorem readBytes_sprite (m : Machine) (height : Nibble) :
    m.memory.readBytes m.index.toNat height.toNat =
      (m.spriteRows height).map (BitVec.ofInt 8) := by
  rw [spriteRows, List.map_map]
  refine List.map_congr_left fun k _ => ?_
  rw [Memory.read, Address.ofInt_add_natCast, ofInt_toNat, BitVec.setWidth_eq]
  simp

/-- Drawing by the registers is drawing the sprite they put somewhere. -/
theorem drawSprite_eq (m : Machine) (x y : Register) (height : Nibble) :
    m.drawSprite x y height = { m with
      screen := m.screen.drawOne (m.sprite x y height)
      registers := m.registers.writeFlag (m.screen.hits (m.sprite x y height)) } := by
  simp only [drawSprite, readBytes_sprite]
  rfl

theorem value_flag_drawSprite (m : Machine) (x y : Register) (height : Nibble) :
    (m.drawSprite x y height).value .flag = (m.screen.hits (m.sprite x y height)).toNat := by
  rw [drawSprite_eq, value, register, RegisterFile.writeFlag, RegisterFile.read_write, if_pos rfl]
  cases m.screen.hits (m.sprite x y height) <;> rfl

theorem value_flag_drawSprite_eq_one_iff : (m.drawSprite x y height).value .flag = 1 ↔
    m.screen.hits (m.sprite x y height) = true := by
  rw [value_flag_drawSprite]
  cases m.screen.hits (m.sprite x y height) <;> simp

theorem register_drawSprite {r : Register} (hr : r ≠ .flag) :
    (m.drawSprite x y height).register r = m.register r := by
  rw [drawSprite_eq, register, RegisterFile.writeFlag, RegisterFile.read_write, if_neg (Ne.symm hr)]
  rfl

theorem draws_drawSprite (m : Machine) (x y : Register) (height : Nibble) :
    m.Draws (m.drawSprite x y height) x y height where
  pixels px hpx py hpy := by
    rw [drawSprite_eq]
    exact Screen.lit_drawOne m.screen _ hpx hpy
  flag_bit := by
    rw [value_flag_drawSprite]
    cases m.screen.hits (m.sprite x y height) <;> simp
  collision := by
    rw [value_flag_drawSprite_eq_one_iff, drawSprite_eq]
    exact Screen.hits_iff
  empty h := by
    have hrows : (m.sprite x y height).rows = [] := by
      rw [h]
      rfl
    obtain ⟨hscreen, hhits⟩ := m.screen.drawOne_of_rows_nil hrows
    rw [value_flag_drawSprite, drawSprite_eq, hhits]
    exact ⟨hscreen, rfl⟩
  registers r hr := register_drawSprite hr
  rest := by rw [drawSprite_eq]

/-! ## The same sprite again -/

/-- Coordinates that are not in `VF` are still there, and so is the sprite. -/
theorem sprite_drawSprite (hx : x ≠ .flag) (hy : y ≠ .flag) :
    (m.drawSprite x y height).sprite x y height = m.sprite x y height := by
  have hrows : (m.drawSprite x y height).spriteRows height = m.spriteRows height := rfl
  rw [sprite, sprite, value, value, register_drawSprite hx, register_drawSprite hy, hrows]
  rfl

/-- On a machine that shows what drawing the same sprite has left. -/
theorem drawSprite_again (hsprite : n.sprite x y height = m.sprite x y height)
    (hscreen : n.screen = (m.drawSprite x y height).screen) :
    (n.drawSprite x y height).screen = m.screen ∧
    ((n.drawSprite x y height).value .flag = 1 ↔ ∃ px < 64, ∃ py < 32,
      m.screen.lit px py = false ∧ (m.drawSprite x y height).screen.lit px py = true) := by
  have hdrawn : (m.drawSprite x y height).screen = m.screen.drawOne (m.sprite x y height) := by
    rw [drawSprite_eq]
  rw [value_flag_drawSprite_eq_one_iff, drawSprite_eq n, hsprite, hscreen, hdrawn]
  exact ⟨Screen.drawOne_drawOne _ _, Screen.hits_drawOne_iff⟩

/-- **A sprite is drawn from memory, and taken back.** The bytes from the index on
are drawn at the coordinates in two registers, and `VF` tells whether a pixel
went out. Without a coordinate in `VF`, the same instruction after that leaves
the screen as it was at first, and `VF` tells whether the sprite had lit a pixel. -/
theorem sprite_isDrawn (m : Machine) (x y : Register) (height : Nibble) :
    m.HasEffect (.draw x y height) fun m m' =>
      m.Draws m' x y height ∧
      (x ≠ .flag → y ≠ .flag → m'.HasEffect (.draw x y height) fun _ m'' =>
        m''.screen = m.screen ∧
        (m''.value .flag = 1 ↔
          ∃ px < 64, ∃ py < 32, m.screen.lit px py = false ∧ m'.screen.lit px py = true)) := by
  refine hasEffect fun m _ _ _ => ⟨m.drawSprite x y height, rfl, m.draws_drawSprite x y height, ?_⟩
  intro hx hy
  have hsprite : (m.drawSprite x y height).sprite x y height = m.sprite x y height :=
    sprite_drawSprite hx hy
  refine hasEffect fun n hn _ _ => ⟨n.drawSprite x y height, rfl, ?_⟩
  rcases hn with rfl | rfl
  · exact drawSprite_again hsprite rfl
  · exact drawSprite_again hsprite rfl

end Chip8.Machine
