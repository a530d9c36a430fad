import Mathlib.Order.Bounds.Basic
import LiveFragment.Uniform.Layout

/-! The rules by which a device places the members of a uniform block, and that the layout of a
parameter block follows them. The rules know the members as the program text declares them: each
starts at the least multiple of its alignment that is not below the end of the one before. -/

namespace LiveFragment.Uniform

open LiveFragment.Parameter

/-- The types that members of a parameter block are declared with. -/
inductive MemberType
  | int
  | float
  | vec2
  | vec3
  | vec4
deriving DecidableEq, Repr

namespace MemberType

def word : MemberType → String
  | int => "int"
  | float => "float"
  | vec2 => "vec2"
  | vec3 => "vec3"
  | vec4 => "vec4"

/-- A vector of three is aligned as one of four. -/
def alignment : MemberType → Nat
  | int | float => 4
  | vec2 => 8
  | vec3 | vec4 => 16

def size : MemberType → Nat
  | int | float => 4
  | vec2 => 8
  | vec3 => 12
  | vec4 => 16

def ofShape : Shape → MemberType
  | .int => int
  | .float => float
  | .vec2 => vec2
  | .vec3 | .color => vec3
  | .vec4 => vec4

theorem word_ofShape (shape : Shape) : (ofShape shape).word = shape.programType := by
  cases shape <;> rfl

end MemberType

/-- A member of a uniform block, as it is declared. -/
structure Member where
  type : MemberType
  name : String
  /-- The number of elements of an array. -/
  length : Option Nat
deriving DecidableEq, Repr

namespace Member

def ofDefinition (definition : Definition) : Member :=
  ⟨.ofShape definition.shape, definition.name, definition.length⟩

/-- An array is aligned as a vector of four, whatever its elements are. -/
def alignment (member : Member) : Nat :=
  match member.length with
  | some _ => 16
  | none => member.type.alignment

def size (member : Member) : Nat :=
  match member.length with
  | some length => 16 * length
  | none => member.type.size

/-- The offsets of the elements of a member that starts at a position. -/
def offsets (member : Member) (start : Nat) : List Nat :=
  match member.length with
  | some length => (List.range length).map fun index => start + index * 16
  | none => [start]

theorem alignment_pos (member : Member) : 0 < member.alignment := by
  obtain ⟨type, name, length⟩ := member
  cases length with
  | some length => exact Nat.succ_pos 15
  | none => cases type <;> simp [alignment, MemberType.alignment]

end Member

/-- The least multiple of an alignment that is not below a position. -/
def Aligned (alignment position start : Nat) : Prop :=
  IsLeast {multiple | alignment ∣ multiple ∧ position ≤ multiple} start

/-- The places of members that follow a position: the offsets of their elements, and where the last
one ends. -/
inductive Placed : Nat → List Member → List (List Nat) → Nat → Prop
  | nil {position : Nat} : Placed position [] [] position
  | cons {position start stop : Nat} {member : Member} {rest : List Member}
      {others : List (List Nat)} (aligned : Aligned member.alignment position start)
      (behind : Placed (start + member.size) rest others stop) :
    Placed position (member :: rest) (member.offsets start :: others) stop

/-- A layout is the one that the rules give to members. The block ends at a multiple of sixteen. -/
def Std140 (members : List Member) (layout : Layout) : Prop :=
  ∃ stop, Placed 0 members layout.offsets stop ∧ Aligned 16 stop layout.size

/-- Multiples are as far apart as the alignment, so there is one within that distance. -/
theorem Aligned.of_lt {alignment position start : Nat} (divides : alignment ∣ start)
    (above : position ≤ start) (near : start < position + alignment) :
    Aligned alignment position start := by
  refine ⟨⟨divides, above⟩, ?_⟩
  rintro multiple ⟨⟨other, rfl⟩, beyond⟩
  obtain ⟨factor, rfl⟩ := divides
  apply Nat.mul_le_mul_left
  apply Nat.le_of_lt_succ
  have apart : alignment * factor < alignment * (other + 1) := by
    rw [Nat.mul_succ]
    omega
  exact Nat.lt_of_mul_lt_mul_left apart

theorem alignUp_near {alignment : Nat} (positive : 0 < alignment) (position : Nat) :
    position ≤ alignUp position alignment ∧ alignUp position alignment < position + alignment := by
  have split := Nat.div_add_mod' (position + alignment - 1) alignment
  have below := Nat.mod_lt (position + alignment - 1) positive
  rw [alignUp]
  omega

theorem aligned_alignUp {alignment : Nat} (positive : 0 < alignment) (position : Nat) :
    Aligned alignment position (alignUp position alignment) := by
  obtain ⟨above, near⟩ := alignUp_near positive position
  exact .of_lt (Nat.dvd_mul_left ..) above near

theorem Aligned.eq_alignUp {alignment position start : Nat} (positive : 0 < alignment)
    (aligned : Aligned alignment position start) : start = alignUp position alignment :=
  aligned.unique (aligned_alignUp positive position)

namespace Placed

variable {position stop : Nat} {members : List Member} {offsets : List (List Nat)}

theorem position_le_stop (placed : Placed position members offsets stop) : position ≤ stop := by
  induction placed with
  | nil => exact Nat.le_refl _
  | cons aligned _ ih => exact Nat.le_trans (Nat.le_add_right_of_le aligned.1.2) ih

theorem unique (placed : Placed position members offsets stop) {others : List (List Nat)}
    {last : Nat} (again : Placed position members others last) :
    others = offsets ∧ last = stop := by
  induction placed generalizing others last with
  | nil =>
    cases again
    exact ⟨rfl, rfl⟩
  | cons aligned _ ih =>
    cases again with
    | cons alignedAgain behind =>
      obtain rfl := alignedAgain.unique aligned
      obtain ⟨rfl, rfl⟩ := ih behind
      exact ⟨rfl, rfl⟩

theorem exists_of_members (position : Nat) (members : List Member) :
    ∃ offsets stop, Placed position members offsets stop := by
  induction members generalizing position with
  | nil => exact ⟨[], position, .nil⟩
  | cons member rest ih =>
    obtain ⟨others, stop, behind⟩ := ih (alignUp position member.alignment + member.size)
    exact ⟨_, stop, .cons (aligned_alignUp member.alignment_pos position) behind⟩

end Placed

/-- Members have one layout by the rules. -/
theorem Std140.unique {members : List Member} {layout other : Layout}
    (first : Std140 members layout) (second : Std140 members other) : other = layout := by
  obtain ⟨stop, placed, ends⟩ := first
  obtain ⟨last, again, endsAgain⟩ := second
  obtain ⟨offsets, rfl⟩ := placed.unique again
  rw [Layout.mk.injEq]
  exact ⟨offsets, endsAgain.unique ends⟩

theorem Std140.exists_of_members (members : List Member) : ∃ layout, Std140 members layout := by
  obtain ⟨offsets, stop, placed⟩ := Placed.exists_of_members 0 members
  exact ⟨⟨offsets, alignUp stop 16⟩, stop, placed, aligned_alignUp (by decide) stop⟩

namespace Layout

theorem place?_eq (position : Nat) (definition : Definition) :
    let member := Member.ofDefinition definition
    let start := alignUp position member.alignment
    place? position definition =
      if start + member.size ≤ maxBlockBytes then some (member.offsets start, start + member.size)
      else none := by
  obtain ⟨name, shape, length, initial, min, max, description⟩ := definition
  cases length with
  | some length => rfl
  | none => cases shape <;> rfl

/-- Members are refused as soon as one of them ends too late, which is when the last one does. -/
theorem placeAll?_eq {definitions : List Definition} {position stop : Nat}
    {offsets : List (List Nat)}
    (placed : Placed position (definitions.map .ofDefinition) offsets stop)
    (within : position ≤ maxBlockBytes) :
    placeAll? position definitions =
      if stop ≤ maxBlockBytes then some (offsets, stop) else none := by
  induction definitions generalizing position offsets with
  | nil =>
    cases placed
    exact (if_pos within).symm
  | cons definition rest ih =>
    cases placed with
    | cons aligned behind =>
      obtain rfl := aligned.eq_alignUp (Member.alignment_pos _)
      rw [placeAll?, place?_eq]
      split
      · rename_i fits
        simp only [bind, Option.bind_some, ih behind fits]
        split <;> rfl
      · rename_i late
        have after := behind.position_le_stop
        rw [if_neg (by omega)]
        rfl

theorem place?_le {position stop : Nat} {definition : Definition} {offsets : List Nat}
    (placed : place? position definition = some (offsets, stop)) : stop ≤ maxBlockBytes := by
  rw [place?_eq] at placed
  obtain ⟨fits, same⟩ := Option.ite_none_right_eq_some.mp placed
  exact (Prod.mk.inj (Option.some.inj same)).2 ▸ fits

theorem placeAll?_le {position stop : Nat} {definitions : List Definition}
    {offsets : List (List Nat)} (within : position ≤ maxBlockBytes)
    (placed : placeAll? position definitions = some (offsets, stop)) : stop ≤ maxBlockBytes := by
  obtain ⟨others, last, ruled⟩ := Placed.exists_of_members position (definitions.map .ofDefinition)
  rw [placeAll?_eq ruled within] at placed
  obtain ⟨fits, same⟩ := Option.ite_none_right_eq_some.mp placed
  exact (Prod.mk.inj (Option.some.inj same)).2 ▸ fits

/-- The layout is the one of the rules, unless that is larger than a block may be. -/
theorem ofDefinitions?_eq {definitions : List Definition} {layout : Layout}
    (rules : Std140 (definitions.map .ofDefinition) layout) :
    ofDefinitions? definitions =
      if layout.size ≤ maxBlockBytes then some layout else none := by
  obtain ⟨stop, placed, ends⟩ := rules
  have size := ends.eq_alignUp (by decide)
  -- The largest block is itself a multiple of sixteen, so rounding up does not pass it.
  have same : layout.size ≤ maxBlockBytes ↔ stop ≤ maxBlockBytes :=
    ⟨ends.1.2.trans, fun below => ends.2 ⟨⟨4096, rfl⟩, below⟩⟩
  rw [ofDefinitions?, placeAll?_eq placed (Nat.zero_le _)]
  simp only [same]
  split
  · rw [Option.map_some, ← size]
  · rfl

/-- What a block is laid out as is its layout by the rules. -/
theorem std140_of_ofDefinitions? {definitions : List Definition} {layout : Layout}
    (laid : ofDefinitions? definitions = some layout) :
    Std140 (definitions.map .ofDefinition) layout := by
  obtain ⟨ruled, rules⟩ := Std140.exists_of_members (definitions.map .ofDefinition)
  rw [ofDefinitions?_eq rules] at laid
  obtain ⟨_, same⟩ := Option.ite_none_right_eq_some.mp laid
  exact Option.some.inj same ▸ rules

end Layout

end LiveFragment.Uniform
