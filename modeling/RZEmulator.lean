import RZEmulator.Lib.Run
import RZEmulator.Lib.Arena
import RZEmulator.Lib.SwapRemove
import RZEmulator.Chihiro.Item
import RZEmulator.Chihiro.World
import RZEmulator.Chihiro.Equipment
import RZEmulator.Chihiro.Stock
import RZEmulator.Chihiro.InventoryRun
import RZEmulator.Chihiro.StorageRun
import RZEmulator.Chihiro.Trade
import RZEmulator.Chihiro.TradeSession
import RZEmulator.Chihiro.TradeSymmetry
import RZEmulator.Chihiro.TradeConsent
import RZEmulator.Chihiro.TradeExchange
import RZEmulator.Chihiro.TradeGoods
import RZEmulator.Chihiro.TradeExact
import RZEmulator.Chihiro.TradeAtomic
import RZEmulator.Chihiro.AuthNetwork
import RZEmulator.Chihiro.LoginAuthentic
import RZEmulator.Mononoke.Server
import RZEmulator.Mononoke.Logins
import RZEmulator.Mononoke.OneTimeKey
import RZEmulator.Mononoke.GameRegistry
import RZEmulator.Mononoke.LoginOwnership
import RZEmulator.Shared.FramingExact
import RZEmulator.Shared.SendOrder
import RZEmulator.Chihiro.Announcement
import RZEmulator.Chihiro.RegionRun
import RZEmulator.Chihiro.PartyRun
import RZEmulator.Chihiro.PartyInvitation
import RZEmulator.Chihiro.PlayerSafety
import RZEmulator.Chihiro.StateOwnership
import RZEmulator.Chihiro.Monster
import RZEmulator.Chihiro.DamageLedger
import RZEmulator.Chihiro.DamageRun
import RZEmulator.Chihiro.Hate
import RZEmulator.Chihiro.HateSides
import RZEmulator.Chihiro.HateSymmetry
import RZEmulator.Chihiro.MemPool
import RZEmulator.Chihiro.HandleRegistry
import RZEmulator.Chihiro.HandleRun
import RZEmulator.Chihiro.TamingRun
import RZEmulator.Shared.PacketDeclaration
import RZEmulator.Shared.PacketValue
import RZEmulator.Shared.PacketElements
import RZEmulator.Shared.PacketTyped
import RZEmulator.Shared.PacketPlain
import RZEmulator.Shared.PacketRoundTrip
import RZEmulator.Chihiro.RespawnObject
import RZEmulator.Chihiro.RespawnRun
import RZEmulator.Chihiro.FieldProp
import RZEmulator.Chihiro.FieldPropRun
import RZEmulator.Chihiro.FieldPropLock
import RZEmulator.Chihiro.UnitDeath
import RZEmulator.Chihiro.StateList
import RZEmulator.Chihiro.ItemIndexRun
import RZEmulator.Chihiro.CharacterSave
import RZEmulator.Chihiro.ItemSave
import RZEmulator.Chihiro.QuadTree
import RZEmulator.Chihiro.LineOfSight
import RZEmulator.Chihiro.RegionScan
import RZEmulator.Chihiro.QuestStatus
import RZEmulator.Chihiro.QuestKill
import RZEmulator.Chihiro.MoveVector
import RZEmulator.Chihiro.LineIntersection
import RZEmulator.Chihiro.QuestManager
import RZEmulator.Chihiro.QuestCompletion
import RZEmulator.Chihiro.WearRun
import RZEmulator.Chihiro.StateHold
import RZEmulator.Chihiro.PickupOrder
import RZEmulator.Chihiro.Enhance
import RZEmulator.Chihiro.MixSearch
import RZEmulator.Chihiro.Experience
import RZEmulator.Chihiro.SkillLearn
import RZEmulator.Chihiro.SummonBinding
import RZEmulator.Chihiro.SoulStoneCraft
import RZEmulator.Chihiro.MixConsumption
import RZEmulator.Chihiro.DropExpansion
import RZEmulator.Chihiro.SkillTargets
import RZEmulator.Chihiro.StateSave
import RZEmulator.Chihiro.Resurrection
import RZEmulator.Chihiro.AuraUpkeep
import RZEmulator.Chihiro.MultiHit
import RZEmulator.Chihiro.AdditionalDamage
import RZEmulator.Chihiro.SkillCost
import RZEmulator.Chihiro.DamageDealing
import RZEmulator.Chihiro.CastFailure
import RZEmulator.Chihiro.AuraToggle
import RZEmulator.Chihiro.Energy
import RZEmulator.Chihiro.DialogMenu
import RZEmulator.Chihiro.RuleTables
import RZEmulator.Chihiro.ItemWearEffect
import RZEmulator.Chihiro.ItemStats
import RZEmulator.Chihiro.StateLevel
import RZEmulator.Chihiro.TargetChoice
import RZEmulator.Chihiro.Patrol
import RZEmulator.Chihiro.LocationFile
import RZEmulator.Chihiro.StateRemoval
import RZEmulator.Chihiro.RegionTester
import RZEmulator.Chihiro.SkillStateMod
import RZEmulator.Chihiro.AreaHeal
import RZEmulator.Chihiro.MoveRequest
import RZEmulator.Chihiro.SummonGear
import RZEmulator.Chihiro.SkillPropRun
import RZEmulator.Chihiro.PickUpRequest
import RZEmulator.Lib.BitBlock
import RZEmulator.Lib.Feistel
import RZEmulator.Shared.Des
import RZEmulator.Shared.DesStandard
import RZEmulator.Shared.DesBuffer
import RZEmulator.Lib.BlockStream
import RZEmulator.Shared.MD5
import RZEmulator.Mononoke.LoginPassword
import RZEmulator.Shared.Rc4Key
import RZEmulator.Shared.Channel
import RZEmulator.Shared.ChannelRun
import RZEmulator.Shared.MPSCQueue
import RZEmulator.Lib.Stride
import RZEmulator.Shared.SimpleCipher
import RZEmulator.Shared.DatabaseWorkers
import RZEmulator.Shared.NetworkThreads
import RZEmulator.Shared.EncodedInt
import RZEmulator.Lib.Ledger
import RZEmulator.Chihiro.Shop
import RZEmulator.Chihiro.Market
import RZEmulator.Chihiro.ShopRun
import RZEmulator.Chihiro.ShopWorth
