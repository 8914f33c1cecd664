import LogRelay.Main
import LogRelay.Proofs.Disk
import LogRelay.Proofs.Handle
import LogRelay.Proofs.Lines
import LogRelay.Proofs.Work
import LogRelay.Proofs.Running
import LogRelay.Proofs.Endings
import LogRelay.Proofs.Turns
import LogRelay.Proofs.Reading
import LogRelay.Proofs.Appending
import LogRelay.Proofs.Draining
import LogRelay.Proofs.Rotation
import LogRelay.Proofs.Beginning
import LogRelay.Proofs.Reached
import LogRelay.Proofs.Looking
import LogRelay.Proofs.Waits
import LogRelay.Proofs.Counting
import LogRelay.Proofs.Json
import LogRelay.Proofs.Utf8
import LogRelay.Proofs.Console
import LogRelay.Proofs.Case
import LogRelay.Proofs.Filtering
import LogRelay.Proofs.Accounts
import LogRelay.Proofs.Escapes
import LogRelay.Proofs.Members
import LogRelay.Proofs.Shutdown
import LogRelay.Proofs.Composition
import LogRelay.Proofs.Independence
import LogRelay.Proofs.Choice
import LogRelay.Proofs.Inserts
import LogRelay.Proofs.Dependence
import LogRelay.Proofs.Stanzas
import LogRelay.Proofs.Listing
import LogRelay.Proofs.Rewriting
import LogRelay.Proofs.Overriding
import LogRelay.Proofs.Selection
import LogRelay.Proofs.Starting
import LogRelay.Proofs.Lookup
import LogRelay.Proofs.Terminating
import LogRelay.Proofs.Filling
import LogRelay.Proofs.Decoding
import LogRelay.Proofs.Indenting
import LogRelay.Proofs.Columns
import LogRelay.Proofs.Chunks
import LogRelay.Proofs.Replacement
