import Flipbook.Text.Printable
import Flipbook.Number.Freeform
import Flipbook.Css.Animation
import Flipbook.Value.Blend
import Flipbook.Markup.Document
import Flipbook.Markup.Selector
import Flipbook.Markup.StyleElement
import Flipbook.Markup.Presentation
import Flipbook.Frame.Compile
import Flipbook.Sheet.Svg
import Flipbook.Config.Settings
import Flipbook.Config.Pattern
import Flipbook.Config.Load
import Flipbook.Files.FileTree
import Flipbook.Conversion.Convert
import Flipbook.CommandLine.Arguments
import Flipbook.Main
import Flipbook.Proofs.Markup.TagText
import Flipbook.Proofs.Markup.Setting
import Flipbook.Proofs.Markup.Tokens
import Flipbook.Proofs.Markup.Steps
import Flipbook.Proofs.Markup.LastWrite
import Flipbook.Proofs.Markup.Untouched
import Flipbook.Proofs.Css.PlainDecimal
import Flipbook.Proofs.Css.Totality
import Flipbook.Proofs.Css.Marks
import Flipbook.Proofs.Css.KeyframesScan
import Flipbook.Proofs.Number.BitOrder
import Flipbook.Proofs.Number.Nearest
import Flipbook.Proofs.Number.Quotient
import Flipbook.Proofs.Css.StopOrder
import Flipbook.Proofs.Css.Offsets
import Flipbook.Proofs.Css.BlocksScan
import Flipbook.Proofs.Css.SheetReadsBack
import Flipbook.Proofs.Number.Rounding
import Flipbook.Proofs.Value.Faults
import Flipbook.Proofs.Number.NumeralText
import Flipbook.Proofs.Text.Calls
import Flipbook.Proofs.Value.PathText
import Flipbook.Proofs.Value.KindText
import Flipbook.Proofs.Value.Blended
import Flipbook.Proofs.Value.SameShape
import Flipbook.Proofs.Text.ScanPlaces
import Flipbook.Proofs.Markup.StyleText
import Flipbook.Proofs.Markup.StyleSpans
import Flipbook.Proofs.Markup.Rejoined
import Flipbook.Proofs.Frame.FixedPoint
import Flipbook.Proofs.Config.Accepted
import Flipbook.Proofs.Config.Layers
import Flipbook.Proofs.Number.HalfUp
import Flipbook.Proofs.Frame.FrameCount
import Flipbook.Proofs.Config.UsualPattern
import Flipbook.Proofs.Files.Names
import Flipbook.Proofs.Conversion.Stages
import Flipbook.Proofs.Conversion.LastWrites
import Flipbook.Proofs.Conversion.Unreported
import Flipbook.Proofs.CommandLine.Unreported
import Flipbook.Proofs.Markup.ReadBack
import Flipbook.Proofs.Markup.Idempotent
import Flipbook.Proofs.Number.Difference
import Flipbook.Proofs.Frame.Neighbours
import Flipbook.Proofs.Text.Utf8
import Flipbook.Proofs.Conversion.PassThrough
import Flipbook.Proofs.Markup.PropertyName
import Flipbook.Proofs.Number.Value
import Flipbook.Proofs.Number.NearestEven
import Flipbook.Proofs.Number.RoundedResult
import Flipbook.Proofs.Number.RoundedRatio
import Flipbook.Proofs.Number.QuotientFloor
import Flipbook.Proofs.Frame.Cycle
import Flipbook.Proofs.Number.OppositeRounding
import Flipbook.Proofs.Number.FourPlaces
import Flipbook.Proofs.Markup.Pivot
import Flipbook.Proofs.Markup.TransformList
import Flipbook.Proofs.Markup.TransformMap
import Flipbook.Proofs.Value.Constant
import Flipbook.Proofs.Text.Parentheses
import Flipbook.Proofs.Value.NestedCalls
import Flipbook.Proofs.Value.Units
import Flipbook.Proofs.Timing.Bisection
import Flipbook.Proofs.Css.BraceDepth
import Flipbook.Proofs.Css.KeyframesHeader
import Flipbook.Proofs.Css.KeyframesRule
import Flipbook.Proofs.Text.ScanRuns
import Flipbook.Proofs.Css.KeyframesSpans
import Flipbook.Proofs.Css.BlockPlaces
import Flipbook.Proofs.Number.ValueOrder
import Flipbook.Proofs.Css.OffsetRange
import Flipbook.Proofs.Css.StopPlaces
import Flipbook.Proofs.Css.KeyframesAppend
import Flipbook.Proofs.Css.CutKeyframes
import Flipbook.Proofs.Css.SelectorRules
import Flipbook.Proofs.Css.AtRules
import Flipbook.Proofs.Css.ShorthandFields
import Flipbook.Proofs.Markup.SelectorForm
import Flipbook.Proofs.Number.RangeEnds
import Flipbook.Proofs.Sheet.FrameShape
import Flipbook.Proofs.Sheet.SheetShows
import Flipbook.Proofs.Markup.AxisKeywords
import Flipbook.Proofs.Css.DeclarationLists
import Flipbook.Proofs.Css.SplitOutside
