import Mathlib.Data.List.Find
import RZEmulator.Chihiro.Storage

/-!
# Items change inventories

What `moveWhole` and `movePart` do in a well-formed world: exactly the units asked for go from one inventory
to the other (`Moved`), and nothing stops them but a stack that would not fit its count (`FitsStack`).
-/

namespace RZEmulator.Chihiro.World

variable {w w' w₁ w₂ : World} {r r' : InvRef} {p q x : ItemPtr} {c : Int} {reindex : Bool}

/-- `c` units of the stack `p` have gone from `r` to `r'`; nobody's gold has changed. -/
structure Moved (w w' : World) (r r' : InvRef) (p : ItemPtr) (c : Int) : Prop where
  units : ∀ code r'', units code w' r'' = units code w r'' -
    (if r'' = r ∧ (w.items p).inst.Code = code then c else 0) +
    (if r'' = r' ∧ (w.items p).inst.Code = code then c else 0)
  persona : ∀ h, (w'.players h).persona = (w.players h).persona

/-- The stack that `c` units of `p` would join in `r` has room for them. -/
def FitsStack (w : World) (r : InvRef) (p : ItemPtr) (c : Int) : Prop :=
  ∀ e ∈ w.joinTarget r p, (w.items e).inst.nCount + c < 2 ^ 63

instance (w : World) (r : InvRef) (p : ItemPtr) (c : Int) : Decidable (FitsStack w r p c) :=
  inferInstanceAs (Decidable (∀ e ∈ w.joinTarget r p, (w.items e).inst.nCount + c < 2 ^ 63))

theorem Touched.setNewIdx (w : World) (r : InvRef) (x : ItemPtr) : Touched x w (w.setNewIdx r x) := by
  refine ⟨QuietAt.trans ?_ (.updItem _ x fun i => i.stack_setIdx _),
    (SameTags.updInv x w _ _).trans (.updItem x _ x fun _ => rfl)⟩
  exact .updInv x w r fun _ => rfl

theorem Touched.refl (x : ItemPtr) (w : World) : Touched x w w := ⟨.refl x w, .refl x w⟩

/-- The new index of the item, where it gets one. -/
theorem Touched.newIdx (w : World) (r : InvRef) (x : ItemPtr) (reindex : Bool) :
    Touched x w (if reindex then w.setNewIdx r x else w) := by
  split_ifs
  · exact .setNewIdx w r x
  · exact .refl x w

theorem Touched.units (ht : Touched x w w') (code : Int) (r : InvRef) : units code w' r = units code w r :=
  total_quiet _ ht.quiet.toQuiet

theorem Moved.of_taken_put {w₃ : World} (ht : TakenFrom w w₁ r p x c) (htouch : Touched x w₁ w₂)
    (hput : PutInto w₂ w₃ r' x q c) (hfree : Touched x w₃ w') : Moved w w' r r' p c := by
  have hcode : (w₂.items x).inst.Code = (w.items p).inst.Code :=
    (congrArg Item.Lot.Code (htouch.quiet.lot x)).trans (congrArg Item.Lot.Code ht.lot)
  refine ⟨fun code r'' => ?_, fun h => ?_⟩
  · rw [hfree.units, hput.units, htouch.units, ht.units, hcode]
  · exact ((((ht.later.trans htouch.later).trans hput.later).trans hfree.later).persona h)

/-! ## The stack to join -/

/-- Neither taking the item out nor giving it an index changes which stack it joins elsewhere. -/
theorem joinTarget_taken (hok : WorldOk w) (hp : p ∈ (w.inv r).vList) (hne : r' ≠ r)
    (ht : TakenFrom w w₁ r p x c) (htouch : Touched x w₁ w₂) :
    w₂.joinTarget r' x = w.joinTarget r' p ∧
      ∀ e ∈ w.joinTarget r' p, (w₂.items e).inst.nCount = (w.items e).inst.nCount := by
  have hlot : (w₂.items x).lot = (w.items p).lot.withCount c := (htouch.quiet.lot x).trans ht.lot
  have hcode : (w₂.items x).inst.Code = (w.items p).inst.Code := congrArg Item.Lot.Code hlot
  have hbase : (w₂.items x).itemBase = (w.items p).itemBase := congrArg Item.Lot.itemBase hlot
  have hlist : (w₂.inv r').vList = (w.inv r').vList := (htouch.quiet.vList r').trans (ht.other r' hne)
  have hin : ∀ a ∈ (w.inv r').vList, a ≠ p ∧ a ≠ x := fun a ha => by
    have hap : a ≠ p := fun heq => hne ((hok.mem_bag hp).mp (heq ▸ ha))
    exact ⟨hap, (ht.stays hok ha hap).1⟩
  refine ⟨?_, fun e he => ?_⟩
  · have hjoinable : (w₂.items x).isJoinable = (w.items p).isJoinable := by
      rw [Item.isJoinable, hbase, Item.isJoinable]
    unfold joinTarget
    rw [hjoinable, hcode]
    split_ifs
    · unfold findByCode
      rw [hlist]
      refine List.find?_congr fun a ha => ?_
      rw [htouch.quiet.other a (hin a ha).2, (ht.alike a (hin a ha).2).Code]
    · rfl
  · obtain ⟨hap, hax⟩ := hin e (joinTarget_eq_some he).1
    rw [htouch.quiet.other e hax, ht.count e hax, if_neg hap, sub_zero]

/-! ## Moving a part -/

/-- What a caller of the two moves has checked about the stack `p` in `r`. -/
structure Movable (w : World) (r r' : InvRef) (p : ItemPtr) (c : Int) : Prop where
  ok : GoodsOk w
  owner : w.playerPool r.owner = true
  ne : r' ≠ r
  mem : p ∈ (w.inv r).vList
  coded : (w.items p).inst.Code ≠ 0
  pos : 0 < c
  le : c ≤ (w.items p).inst.nCount

/-- What the push at the end of a move does. -/
theorem TakenFrom.put (ht : TakenFrom w w₁ r p x c) (hok₁ : GoodsOk w₁) (hloose : Loose w₁ x)
    (hfree : (w₁.items x).isFree = true) (htouch : Touched x w₁ w₂) {w₃ : World}
    (hrun : w₂.push r' x c = some (q, w₃)) :
    PutInto w₂ w₃ r' x q c ∧ GoodsOk w₃ ∧ (q ≠ x → (∀ r'', x ∉ (w₃.inv r'').vList) ∧
      (w₃.items x).isFree = true) := by
  have hok₂ := hok₁.touched hloose.loose hfree htouch
  have hloose₂ := htouch.loose hloose
  have hcount : (w₂.items x).inst.nCount = c :=
    (congrArg Item.Lot.nCount (htouch.quiet.lot x)).trans ht.nCount
  rw [← hcount] at hrun
  have hput := push_putInto hok₂.toWorldOk hloose₂ hrun
  rw [hcount] at hput
  refine ⟨hput, hok₂.putInto (htouch.isFree ▸ hfree) hput, fun hqx => ⟨fun r'' hx => ?_, ?_⟩⟩
  · exact ((hput.mem r'' x).mp hx).elim (hloose₂.loose r'') fun h => hqx h.2.2
  · rw [(hput.joined hqx).2.2, htouch.isFree]
    exact hfree

namespace Movable

variable (hm : Movable w r r' p c)

include hm

theorem isInt64 : Lib.IsInt64 c := by
  have hfit := (hm.ok.held r p hm.mem).count
  have hpos := hm.pos
  have hle := hm.le
  unfold Lib.IsInt64 at *
  omega

/-- The item that `Pop` gives is taken out, registered and names nobody; it still is after a touch. -/
theorem taken {o : Option ItemPtr} (hrun : w.pop r p c = some (o, w₁)) :
    ∃ x, o = some x ∧ TakenFrom w w₁ r p x c ∧ GoodsOk w₁ ∧ Loose w₁ x ∧ (w₁.items x).isFree = true := by
  obtain ⟨x, rfl, ht⟩ := pop_takenFrom hm.ok.toWorldOk hm.mem hm.le hrun
  exact ⟨x, rfl, ht, hm.ok.takenFrom hm.owner ht,
    ht.looseItem hm.ok.toWorldOk hm.mem hm.coded hm.isInt64, ht.free (hm.ok.login hm.owner)⟩

theorem pop_isSome : (w.pop r p c).isSome := by
  have hst := hm.ok.stocked r
  exact World.pop_isSome (hst.check hm.mem) (hst.based p hm.mem) (hm.ok.held r p hm.mem).count hm.pos.le

theorem put_isSome (ht : TakenFrom w w₁ r p x c) (htouch : Touched x w₁ w₂) :
    (w₂.push r' x c).isSome ↔ FitsStack w r' p c := by
  have hok := hm.ok.toWorldOk
  obtain ⟨htarget, hcount⟩ := joinTarget_taken hok hm.mem hm.ne ht htouch
  have hpos := hm.pos
  constructor
  · intro hsome e he
    obtain ⟨⟨a, w₃⟩, hpush⟩ := Option.isSome_iff_exists.mp hsome
    obtain ⟨-, hfit, -⟩ := push_join hpush (htarget.trans he)
    rw [hcount e he] at hfit
    exact hfit.2
  · intro hfits
    refine push_isSome ?_ fun e he => ?_
    · have hbase : (w₂.items x).itemBase = (w.items p).itemBase :=
        congrArg Item.Lot.itemBase ((htouch.quiet.lot x).trans ht.lot)
      rw [hbase]
      exact (hok.stocked r).based p hm.mem
    · rw [htarget] at he
      have hmem := (joinTarget_eq_some he).1
      have hlow := (hok.held r' e hmem).count.1
      have hup := hfits e he
      refine ⟨?_, ?_⟩
      · have hep : e ≠ p := fun heq => hm.ne ((hok.mem_bag hm.mem).mp (heq ▸ hmem))
        have hex := (ht.stays hok hmem hep).1
        rw [htouch.quiet.other e hex, (ht.alike e hex).itemBase]
        exact (hok.stocked r').based e hmem
      · rw [hcount e he]
        unfold Lib.IsInt64
        omega

/-- Units of a stack move. -/
theorem movePart (hrun : w.movePart r r' p c reindex = some w') : GoodsOk w' ∧ Moved w w' r r' p c := by
  obtain ⟨⟨o, w₁⟩, hpop, hrun⟩ := Option.bind_eq_some_iff.mp hrun
  obtain ⟨x, rfl, ht, hok₁, hloose, hfree⟩ := hm.taken hpop
  obtain ⟨⟨q, w₃⟩, hpush, rfl⟩ := Option.map_eq_some_iff.mp hrun
  have htouch := Touched.newIdx w₁ r' x reindex
  obtain ⟨hput, hok₃, hjoined⟩ := ht.put hok₁ hloose hfree htouch hpush
  dsimp only
  split_ifs with hqx
  · obtain ⟨hout, hfree₃⟩ := hjoined hqx
    have hend : Touched x w₃ (w₃.updItem x (·.pendFreeItem)) := .updItem w₃ x (fun _ => rfl) fun _ => rfl
    exact ⟨hok₃.touched hout hfree₃ hend, .of_taken_put ht htouch hput hend⟩
  · exact ⟨hok₃, .of_taken_put ht htouch hput (.refl x w₃)⟩

theorem movePart_isSome : (w.movePart r r' p c reindex).isSome ↔ FitsStack w r' p c := by
  obtain ⟨⟨o, w₁⟩, hpop⟩ := Option.isSome_iff_exists.mp hm.pop_isSome
  obtain ⟨x, rfl, ht, -⟩ := hm.taken hpop
  rw [World.movePart, hpop, Option.bind_some]
  simp only [Option.bind_some, Option.isSome_map]
  exact hm.put_isSome ht (.newIdx w₁ r' x reindex)

/-! ## Moving a whole item -/

/-- A whole item moves. -/
theorem moveWhole (hwhole : (w.items p).inst.nCount = c) (hrun : w.moveWhole r r' p c = some w') : GoodsOk w' ∧ Moved w w' r r' p c := by
  obtain ⟨⟨o, w₁⟩, hpop, hrun⟩ := Option.bind_eq_some_iff.mp hrun
  obtain ⟨rfl, -⟩ := pop_whole hm.ok.toWorldOk hm.mem hpop hwhole
  obtain ⟨x, hx, ht, hok₁, hloose, hfree⟩ := hm.taken hpop
  obtain rfl := Option.some.inj hx
  obtain ⟨⟨q, w₃⟩, hpush, rfl⟩ := Option.map_eq_some_iff.mp hrun
  have htouch := Touched.setNewIdx w₁ r' p
  obtain ⟨hput, hok₃, -⟩ := ht.put hok₁ hloose hfree htouch hpush
  exact ⟨hok₃, .of_taken_put ht htouch hput (.refl p w₃)⟩

/-- An item that joins no stack always fits. -/
theorem moveWhole_isSome (hwhole : (w.items p).inst.nCount = c) (hjoin : (w.items p).isJoinable = false) :
    (w.moveWhole r r' p c).isSome := by
  obtain ⟨⟨o, w₁⟩, hpop⟩ := Option.isSome_iff_exists.mp hm.pop_isSome
  obtain ⟨rfl, -⟩ := pop_whole hm.ok.toWorldOk hm.mem hpop hwhole
  obtain ⟨x, hx, ht, -⟩ := hm.taken hpop
  obtain rfl := Option.some.inj hx
  rw [World.moveWhole, hpop, Option.bind_some, Option.isSome_map]
  refine (hm.put_isSome ht (.setNewIdx w₁ r' p)).mpr fun e he => ?_
  rw [joinTarget, hjoin] at he
  cases he

end Movable

end RZEmulator.Chihiro.World
