import WireSpan.Json.Plain
import WireSpan.Json.Walk
import WireSpan.Program
import WireSpan.Proofs.Http.Framing
import WireSpan.Proofs.Http.Tiling
import WireSpan.Proofs.Http.Truncation
import WireSpan.Proofs.Json.Acceptance
import WireSpan.Proofs.Http.Spelling.Fields
import WireSpan.Proofs.Http.Spelling.Head
import WireSpan.Proofs.Http.Spelling.Chunked
import WireSpan.Proofs.Scan.Relocation
import WireSpan.Proofs.Http.Pipelining
import WireSpan.Proofs.Matcher.Steady
import WireSpan.Proofs.Matcher.Drifting
import WireSpan.Proofs.Matcher.Accounts
import WireSpan.Proofs.Matcher.Choice
import WireSpan.Proofs.Matcher.Greedy
import WireSpan.Proofs.Matcher.Nests
import WireSpan.Proofs.Program.Session
import WireSpan.Proofs.Http.Faults
import WireSpan.Proofs.Json.Truncation
import WireSpan.Proofs.Json.Spans
import WireSpan.Proofs.Json.Relocation
import WireSpan.Proofs.Json.Reparsing
import WireSpan.Proofs.Http.Extent
import WireSpan.Proofs.Json.Embedding
import WireSpan.Proofs.Http.Failures
import WireSpan.Proofs.Http.Hints
import WireSpan.Proofs.Http.LoneLineFeeds
import WireSpan.Proofs.Matcher.Exact
import WireSpan.Proofs.Pattern.WellTyped
import WireSpan.Proofs.Http.ChunkLayout
import WireSpan.Proofs.Json.Guarded
import WireSpan.Proofs.Json.StringUnits
import WireSpan.Proofs.Http.Lengths
import WireSpan.Proofs.Json.Nesting
import WireSpan.Proofs.Http.FieldLimit
import WireSpan.Proofs.Http.FailureOffsets
import WireSpan.Proofs.Json.EndOfInput
import WireSpan.Proofs.Http.StatusLineTruncation
import WireSpan.Proofs.Program.PlainChunks
import WireSpan.Proofs.Json.TrailingData
import WireSpan.Proofs.Json.Masking
import WireSpan.Proofs.Program.Primitives
import WireSpan.Proofs.Program.Search
import WireSpan.Proofs.Http.Lookup
import WireSpan.Proofs.Json.RepeatedKeys
import WireSpan.Proofs.Json.NumeralExtent
import WireSpan.Proofs.Span.Rebasing
