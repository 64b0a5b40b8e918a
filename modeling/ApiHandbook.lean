import ApiHandbook.Files.Edit
import ApiHandbook.Main
import ApiHandbook.Proofs.DataUrl
import ApiHandbook.Proofs.Descriptions
import ApiHandbook.Proofs.Dispatch
import ApiHandbook.Proofs.Docstrings
import ApiHandbook.Proofs.Documentation
import ApiHandbook.Proofs.Outdenting
import ApiHandbook.Proofs.Undelimited
import ApiHandbook.Proofs.Declarations
import ApiHandbook.Proofs.Exclusion
import ApiHandbook.Proofs.Extraction
import ApiHandbook.Proofs.Hosting
import ApiHandbook.Proofs.Namesakes
import ApiHandbook.Proofs.Payloads
import ApiHandbook.Proofs.Publication
import ApiHandbook.Proofs.Remounting
import ApiHandbook.Proofs.CodeBlocks
import ApiHandbook.Proofs.Services
import ApiHandbook.Proofs.Visibility
import ApiHandbook.Service
import ApiHandbook.Text.Digest
import ApiHandbook.Text.Utf8
import ApiHandbook.Proofs.Stability
import ApiHandbook.Proofs.Tables
import ApiHandbook.Proofs.Endpoints
import ApiHandbook.Proofs.InlinedScript
import ApiHandbook.Proofs.Keywords
import ApiHandbook.Proofs.Legible
import ApiHandbook.Proofs.DisplayOrder
import ApiHandbook.Proofs.GroupKinds
import ApiHandbook.Proofs.Demotion
import ApiHandbook.Proofs.Columns
import ApiHandbook.Proofs.Cells
import ApiHandbook.Proofs.Qualified
import ApiHandbook.Proofs.RecordedSource
import ApiHandbook.Proofs.RootedRules
import ApiHandbook.Proofs.Outward
import ApiHandbook.Proofs.Integers
import ApiHandbook.Proofs.Sources
import ApiHandbook.Proofs.Differences
