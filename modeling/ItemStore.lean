import ItemStore.Entity.Repository
import ItemStore.Entity.Sample
import ItemStore.Main
import ItemStore.Proofs.KeyedTables
import ItemStore.Proofs.Translation
import ItemStore.Store.Memory
import ItemStore.Proofs.Cursors
import ItemStore.Proofs.Contents
import ItemStore.Proofs.Draining
import ItemStore.Proofs.FailedFetches
import ItemStore.Proofs.Resuming
import ItemStore.Proofs.Advancing
import ItemStore.Proofs.Unranked
import ItemStore.Proofs.RenderedConditions
import ItemStore.Proofs.RenderedUpdates
import ItemStore.Proofs.Joining
import ItemStore.Proofs.Grammar
import ItemStore.Proofs.Parsing
import ItemStore.Proofs.Lexing
import ItemStore.Proofs.PrintedQueries
import ItemStore.Proofs.MappedValues
import ItemStore.Proofs.ParameterValues
import ItemStore.Proofs.OwnKeys
import ItemStore.Proofs.KeyedQueries
import ItemStore.Proofs.PageChains
import ItemStore.Proofs.Streams
import ItemStore.Proofs.NumberKeys
import ItemStore.Proofs.Base64
import ItemStore.Proofs.WireKeys
import ItemStore.Proofs.BoundQueries
import ItemStore.Proofs.Batches
import ItemStore.Proofs.Lookups
import ItemStore.Proofs.FailedCalls
import ItemStore.Proofs.TokenEnds
import ItemStore.Proofs.Cuts
import ItemStore.Proofs.Spacing
import ItemStore.Proofs.SyntaxErrors
import ItemStore.Proofs.Shorthand
import ItemStore.Proofs.ConjunctOrder
import ItemStore.Proofs.Numbering
import ItemStore.Proofs.References
import ItemStore.Proofs.KeptPlaceholders
import ItemStore.Proofs.ComposedQueries
import ItemStore.Proofs.PageBounds
import ItemStore.Proofs.AttributeValues
import ItemStore.Proofs.ValidLayouts
import ItemStore.Proofs.JsonTexts
import ItemStore.Proofs.ValueTexts
import ItemStore.Proofs.FlatPredicates
import ItemStore.Proofs.Literals
import ItemStore.Proofs.NumberLiterals
import ItemStore.Proofs.DescribedTables
import ItemStore.Proofs.ValueOrder
import ItemStore.Proofs.OrderLaws
import ItemStore.Proofs.Lexemes
import ItemStore.Proofs.Scanning
import ItemStore.Proofs.Tokenizing
