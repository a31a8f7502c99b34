import RZEmulator.Chihiro.Goods

/-!
# Where an item is worn

`Player::TranslateWearPosition` and `Unit::Puton`: from the position that the client sends and the item come the
slot and the slots that have to be cleared, which `Puton` clears one after the other. The array of worn items has 24
slots, although `putonItem` asserts less than 28; an index past the array has no result.

A null template is dereferenced in the source. Every item of an inventory has one, so that its wear type and group
are those of no template here.
-/

namespace RZEmulator.Chihiro

open Lib

namespace ItemWearType

abbrev RIGHTHAND : Int := 0
abbrev LEFTHAND : Int := 1
abbrev ARMULET : Int := 8
abbrev RING : Int := 9
abbrev SECOND_RING : Int := 10
abbrev DECO_WEAPON : Int := 14
abbrev DECO_SHIELD : Int := 15
abbrev BAG_SLOT : Int := 23
abbrev TWOFINGER_RING : Int := 94
abbrev TWOHAND : Int := 99

end ItemWearType

namespace ItemGroup

def GROUP_BULLET : Int := 98

end ItemGroup

/-- The size of `m_anWear`. -/
abbrev MAX_ITEM_WEAR : Int := 24

/-- The classes that decide about a position. -/
inductive ItemClass where
  | onehandSword
  | twohandSword
  | dagger
  | twohandSpear
  | twohandAxe
  | onehandMace
  | twohandMace
  | heavyBow
  | lightBow
  | crossbow
  | onehandStaff
  | twohandStaff
  | onehandAxe
  | shield
  | decoShield
  | decoOnehandSword
  | decoTwohandSword
  | decoDagger
  | decoTwohandSpear
  | decoTwohandAxe
  | decoOnehandMace
  | decoTwohandMace
  | decoHeavyBow
  | decoLightBow
  | decoCrossbow
  | decoOnehandStaff
  | decoTwohandStaff
  | decoOnehandAxe
  | other
deriving DecidableEq

namespace ItemClass

/-- The class of the costume that goes over an item in a hand. -/
def costume : ItemClass → Option ItemClass
  | onehandSword => some decoOnehandSword
  | twohandSword => some decoTwohandSword
  | dagger => some decoDagger
  | twohandSpear => some decoTwohandSpear
  | twohandAxe => some decoTwohandAxe
  | onehandMace => some decoOnehandMace
  | twohandMace => some decoTwohandMace
  | heavyBow => some decoHeavyBow
  | lightBow => some decoLightBow
  | crossbow => some decoCrossbow
  | onehandStaff => some decoOnehandStaff
  | twohandStaff => some decoTwohandStaff
  | onehandAxe => some decoOnehandAxe
  | shield => some decoShield
  | _ => none

def isDecoWeapon (c : ItemClass) : Bool :=
  c ∈ [decoOnehandSword, decoTwohandSword, decoDagger, decoTwohandSpear, decoTwohandAxe, decoOnehandMace,
    decoTwohandMace, decoHeavyBow, decoLightBow, decoCrossbow, decoOnehandStaff, decoTwohandStaff, decoOnehandAxe]

/-- The classes that can be worn in both hands. -/
def isDual (c : ItemClass) : Bool := c ∈ [onehandSword, dagger, onehandAxe]

end ItemClass

/-- The entries of `ItemTemplate::nLimit`. -/
inductive LimitFlag where
  | deva
  | asura
  | gaia
  | fighter
  | hunter
  | magician
  | summoner
deriving DecidableEq

/-- What else the template of an item says about wearing it. -/
structure Gear where
  iclass : ItemClass
  rank : Int
  limit : LimitFlag → Bool
  use_min_level : Int
  use_max_level : Int
  opt_type : Fin 4 → Int
  opt_var : Fin 4 → ℚ

/-- A player who puts items on. The last fields are what other parts of the game answer. -/
structure Wearer where
  world : World
  me : Handle
  gear : ItemPtr → Gear
  level : Int
  m_nUnitExpertLevel : Int
  isJob : LimitFlag → Bool
  race : Int
  currentSkillLevel : Int → Int

namespace GameRule

def getRankLevel (rank : Int) : Int :=
  if rank ≤ 1 then 0
  else if rank = 2 then 20
  else if rank = 3 then 50
  else if rank = 4 then 80
  else if rank = 5 then 100
  else if rank = 6 then 120
  else if rank = 7 then 150
  else 180

end GameRule

/-- The conversion of a number to an integer. -/
def truncated (x : ℚ) : Int := x.num.tdiv x.den

namespace Wearer

open ItemWearType

variable (s : Wearer) (p : ItemPtr) (pos : Int)

def worn (pos : Int) : Option ItemPtr := (s.world.players s.me).anWear pos.toNat

def wearType : Int := ((s.world.items p).itemBase.map (·.wearType)).getD WEAR_NONE

def group : Int := ((s.world.items p).itemBase.map (·.group)).getD 0

def iclass : ItemClass := (s.gear p).iclass

def isTwoHandItem : Bool := s.wearType p = TWOHAND

def isBow : Bool := s.iclass p = .heavyBow ∨ s.iclass p = .lightBow

def isCrossBow : Bool := s.iclass p = .crossbow

def isBullet : Bool := s.group p = ItemGroup.GROUP_BULLET

def isWeapon : Bool := s.group p = ItemGroup.GROUP_WEAPON

def isInInventory : Bool := (s.world.items p).nAccountID = 0 ∧ (s.world.items p).inst.nOwnerUID ≠ 0

/-- `Item::IsWearable`, whose flag is that of an item that failed. -/
def isWearable : Bool := s.wearType p ≠ WEAR_NONE ∧ (s.world.items p).inst.Flag / 8 % 2 = 0

/-! ## `TranslateWearPosition` -/

/-- `Unit::TranslateWearPosition`. -/
def unitAccepts : Bool :=
  s.wearType p ≠ WEAR_NONE && s.isWearable p &&
    decide (GameRule.getRankLevel (s.gear p).rank ≤ max s.m_nUnitExpertLevel s.level) &&
    ((s.gear p).use_min_level = 0 ∨ (s.gear p).use_min_level ≤ s.level) &&
    ((s.gear p).use_max_level = 0 ∨ s.level ≤ (s.gear p).use_max_level)

/-- The item is no card, and for the player's job and race. -/
def playerAccepts : Bool :=
  (s.world.items p).inst.Flag % 2 = 0 &&
    ([LimitFlag.hunter, .fighter, .magician, .summoner].any fun f => (s.gear p).limit f && s.isJob f) &&
    (s.race ≠ 3 ∨ (s.gear p).limit .gaia = true) && (s.race ≠ 4 ∨ (s.gear p).limit .deva = true) &&
    (s.race ≠ 5 ∨ (s.gear p).limit .asura = true)

def SKILL_DUAL_SWORD_EXPERT : Int := 1181
def SKILL_TWIN_BLADE_EXPERT : Int := 61010
def SKILL_TWIN_AXE_EXPERT : Int := 61015

def skilled (skills : List Int) : Bool := skills.any fun id => s.currentSkillLevel id ≥ 1

/-- A second weapon next to one of a class. -/
def wieldsTwo (right : ItemPtr) : Bool :=
  match s.iclass right with
  | .onehandSword => s.iclass p = .onehandSword ∧ s.skilled [SKILL_DUAL_SWORD_EXPERT, SKILL_TWIN_BLADE_EXPERT] = true
  | .dagger => s.iclass p = .dagger ∧ s.skilled [SKILL_TWIN_BLADE_EXPERT] = true
  | .onehandAxe => s.iclass p = .onehandAxe ∧ s.skilled [SKILL_TWIN_AXE_EXPERT] = true
  | _ => false

/-- Bullets need a bow, and a weapon in the left hand one in the right. -/
def handPosition : Option Int :=
  if pos = LEFTHAND ∧ (s.isBullet p = true ∨ s.isWeapon p = true) then
    match s.worn RIGHTHAND with
    | none => none
    | some right =>
      if s.isBullet p = true ∧ ¬(s.isBow right = true ∨ s.isCrossBow right = true) then none
      else if s.isWeapon p = true ∧ s.wieldsTwo p right = false then some RIGHTHAND
      else some LEFTHAND
  else some pos

/-- The costume of a weapon can stay on the left hand. -/
def costumesTwo : Bool :=
  ((s.worn LEFTHAND).all fun left => (s.iclass left).isDual) && ((s.worn RIGHTHAND).any fun right => (s.iclass right).isDual) &&
    (s.worn DECO_WEAPON).isSome && s.skilled [SKILL_DUAL_SWORD_EXPERT, SKILL_TWIN_BLADE_EXPERT, SKILL_TWIN_AXE_EXPERT]

def decoPosition : Option Int :=
  if pos = DECO_SHIELD then
    if (s.iclass p).isDecoWeapon then if s.costumesTwo then some pos else some DECO_WEAPON
    else if ((s.worn LEFTHAND).any fun left => s.iclass left ≠ .shield) ||
        (s.worn RIGHTHAND).any fun right => s.isTwoHandItem right then none
    else some pos
  else some pos

/-- A ring of one finger is worn. -/
def ringWorn : Bool := (s.worn RING).any fun ring => s.wearType ring ≠ TWOFINGER_RING

def typePosition : Int :=
  if s.ringWorn = true ∧ s.wearType p = RING then SECOND_RING
  else if s.wearType p = TWOHAND then RIGHTHAND
  else if pos = TWOFINGER_RING then RING
  else pos

def capacity (g : Gear) : Int :=
  (List.finRange 4).foldl (fun c i => if g.opt_type i = 20 then truncated (c + g.opt_var i) else c) 0

/-- A bag of another capacity must not make the player too heavy, or heavier. -/
def bagFits : Bool :=
  match s.worn BAG_SLOT with
  | none => true
  | some bag =>
    let now := capacity (s.gear bag)
    let new := capacity (s.gear p)
    let max := (s.world.players s.me).nMaxWeight
    let weight := (s.world.players s.me).nWeight
    (s.world.items bag).inst.Code = (s.world.items p).inst.Code ∨ now = new ∨
      ¬((weight ≤ max ∧ max - now + new < weight) ∨ (max < weight ∧ now > new))

/-- A costume goes over an item of its class. -/
def costumeFits : Bool :=
  (s.worn (if pos = DECO_WEAPON then RIGHTHAND else LEFTHAND)).any fun held =>
    (s.iclass held).costume = some (s.iclass p)

/-- The slots to clear, in the order of the source. -/
def overlapped : List Int :=
  (if (s.worn pos).isSome then [pos] else []) ++
  ((if s.isTwoHandItem p then
      match s.worn LEFTHAND with
      | none => []
      | some left =>
        (if ((!s.isBow p && !s.isCrossBow p) || !s.isBullet left) = true then [LEFTHAND] else []) ++
          if (s.worn DECO_SHIELD).isSome then [DECO_SHIELD] else []
    else []) ++
  ((if pos = LEFTHAND then
      match s.worn DECO_SHIELD with
      | none => []
      | some deco =>
        (if s.iclass p = .shield ∧ s.iclass deco ≠ .decoShield then [DECO_SHIELD] else []) ++
          if s.iclass deco = .decoShield then [DECO_SHIELD] else []
    else []) ++
  ((if pos = LEFTHAND then
      match s.worn RIGHTHAND with
      | none => []
      | some right =>
        if s.isTwoHandItem right = true ∧ ((!s.isBow right && !s.isCrossBow right) || !s.isBullet p) = true then
          [RIGHTHAND]
        else []
    else []) ++
  ((if (s.worn SECOND_RING).isSome ∧ s.wearType p = TWOFINGER_RING then [SECOND_RING] else []) ++
  (if (s.worn RING).any (fun ring => s.wearType ring = TWOFINGER_RING) = true ∧ s.wearType p = RING then [RING]
    else [])))))

/-- `Player::TranslateWearPosition`: the slot and what overlaps there. -/
def translateWearPosition : Option (Int × List Int) :=
  if MAX_ITEM_WEAR ≤ pos ∧ pos < MAX_SPARE_ITEM_WEAR then some (pos, [])
  else if (s.unitAccepts p && s.playerAccepts p) = true then
    (s.handPosition p pos).bind fun pos => (s.decoPosition p pos).bind fun pos =>
      let pos := s.typePosition p pos
      if pos = BAG_SLOT ∧ s.bagFits p = false then none
      else if (pos = DECO_WEAPON ∨ pos = DECO_SHIELD) ∧ s.costumeFits p pos = false then none
      else if MAX_ITEM_WEAR ≤ pos ∨ pos < 0 then none
      else some (pos, s.overlapped p pos)
  else none

/-! ## `Puton` -/

/-- The loop over the slots to clear; a slot that is not cleared ends it. -/
def clearAll (h : Handle) : List Int → World → Option (Bool × World)
  | [], w => some (true, w)
  | q :: qs, w =>
    (w.putoffItem h q.toNat).bind fun r =>
      if (r.2.players h).anWear q.toNat = none then clearAll h qs r.2 else some (false, r.2)

/-- `Unit::Puton` of a player. -/
def puton : Option (ResultCode × World) :=
  if s.isInInventory p = false then some (.accessDenied, s.world)
  else if (s.world.items p).inst.nWearInfo ≠ WEAR_NONE then some (.notActable, s.world)
  else
    match s.translateWearPosition p pos with
    | none => some (.notActable, s.world)
    | some (pos, overlap) =>
      (clearAll s.me overlap s.world).bind fun r =>
        if r.1 then
          if pos < MAX_ITEM_WEAR then (r.2.putonItem s.me pos.toNat p).map fun w => (.success, w) else none
        else some (.notActable, r.2)

end Wearer

end RZEmulator.Chihiro
