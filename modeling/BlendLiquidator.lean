import BlendLiquidator.AuctionAgreement
import BlendLiquidator.AuctioneerFacts
import BlendLiquidator.Decimal7
import BlendLiquidator.DefaultFacts
import BlendLiquidator.EventFormat
import BlendLiquidator.FillTiming
import BlendLiquidator.FillerRuns
import BlendLiquidator.Freshness
import BlendLiquidator.InventoryFacts
import BlendLiquidator.LateLanding
import BlendLiquidator.LedgerDrain
import BlendLiquidator.LedgerGap
import BlendLiquidator.NotifierFacts
import BlendLiquidator.PriceWatch
import BlendLiquidator.QueueOnce
import BlendLiquidator.RecheckQueue
import BlendLiquidator.Replays
import BlendLiquidator.Reseeds
import BlendLiquidator.ScanFacts
import BlendLiquidator.Stalls
import BlendLiquidator.TrackerWrites
import BlendLiquidator.TxHex
import BlendLiquidator.TxSound
import BlendLiquidator.UnwindPartial
import BlendLiquidator.AuctioneerLoop
import BlendLiquidator.AuctioneerLoopFacts
import BlendLiquidator.AuctioneerScans
import BlendLiquidator.Agreement
import BlendLiquidator.Downstream
import BlendLiquidator.LiquidationAim
import BlendLiquidator.Decode
import BlendLiquidator.DecodeFacts
import BlendLiquidator.FillChoice
import BlendLiquidator.Standing
import BlendLiquidator.Rows
