import SaveAs.Json.Node
import SaveAs.Page.Masking
import SaveAs.Session.Masking
import SaveAs.Proofs.Base64.Groups
import SaveAs.Proofs.Base64.Acceptance
import SaveAs.Proofs.Delivery
import SaveAs.Proofs.FileName
import SaveAs.Proofs.FileTree.Joining
import SaveAs.Proofs.FileTree.Writing
import SaveAs.Proofs.Session.Delivering
import SaveAs.Proofs.Session.ByteFidelity
import SaveAs.Proofs.Session.Running
import SaveAs.Proofs.Session.Slots
import SaveAs.Proofs.Session.Tenancy
import SaveAs.Proofs.Session.Registration
import SaveAs.Proofs.Interleaving
import SaveAs.Proofs.Session.Snapshot
import SaveAs.Proofs.Page.Running
import SaveAs.Proofs.Page.Growing
import SaveAs.Proofs.Page.Aloof
import SaveAs.Proofs.Page.Snapshot
import SaveAs.Proofs.StoredOptions
import SaveAs.Proofs.Anchor.History
import SaveAs.Proofs.Session.Handing
import SaveAs.Proofs.Session.Moments
import SaveAs.Proofs.Session.Checkpoints
import SaveAs.Proofs.Session.Anchors
import SaveAs.Proofs.Session.Naming
import SaveAs.Proofs.Page.Naming
import SaveAs.Proofs.Storing
import SaveAs.Proofs.Page.Registering
import SaveAs.Proofs.Json.Passing
import SaveAs.Proofs.Json.Writing
import SaveAs.Proofs.Options.Settings
import SaveAs.Proofs.Options.Grammar
import SaveAs.Proofs.Json.Denoting
import SaveAs.Proofs.Options.Taking
import SaveAs.Proofs.Options.Agreement
import SaveAs.Proofs.Session.Handles
import SaveAs.Proofs.Session.Files
import SaveAs.Proofs.Base64.Defects
import SaveAs.Proofs.Anchor.Protocol
import SaveAs.Proofs.Page.Touching
import SaveAs.Proofs.Page.Stages
import SaveAs.Proofs.Page.Calling
import SaveAs.Proofs.Page.Sound
import SaveAs.Proofs.FileName.Equidistribution
import SaveAs.Proofs.Json.Leading
import SaveAs.Proofs.Options.Holding
import SaveAs.Proofs.Options.Leftmost
import SaveAs.Proofs.Options.Blame
import SaveAs.Proofs.Binary64
import SaveAs.Proofs.Json.Number
import SaveAs.Proofs.Options.Literals
import SaveAs.Proofs.DataUrl
import SaveAs.Proofs.Session.Confinement
import SaveAs.Proofs.Session.Drawing
import SaveAs.Proofs.FileName.Numbers
