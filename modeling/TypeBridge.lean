import TypeBridge.Generated.ByteBuffers
import TypeBridge.Main
import TypeBridge.Marshal.CallType
import TypeBridge.Proofs.Build.Serving
import TypeBridge.Proofs.Config.Overriding
import TypeBridge.Proofs.Config.Triples
import TypeBridge.Proofs.Generated.Confinement
import TypeBridge.Proofs.Generated.DefinitionOrder
import TypeBridge.Proofs.Generated.EarlyCheck
import TypeBridge.Proofs.Generated.Exporting
import TypeBridge.Proofs.Generated.Refusal
import TypeBridge.Proofs.Generated.Renaming
import TypeBridge.Proofs.Generated.Staleness
import TypeBridge.Proofs.Marshal.CallBuffers
import TypeBridge.Proofs.Native.Ownership
import TypeBridge.Proofs.Probe.Printing
import TypeBridge.Proofs.Record.Description
import TypeBridge.Proofs.Record.Iterating
import TypeBridge.Proofs.Record.Marshalling
import TypeBridge.Proofs.Record.Names
import TypeBridge.Proofs.Record.NativeText
import TypeBridge.Proofs.Record.Overflowing
import TypeBridge.Proofs.Record.Remnants
import TypeBridge.Proofs.Record.Spellings
import TypeBridge.Proofs.Text.Dedenting
import TypeBridge.Proofs.Types.Appending
import TypeBridge.Proofs.Types.Composing
import TypeBridge.Proofs.Types.Registering
import TypeBridge.Proofs.Types.Resolving
import TypeBridge.Proofs.Types.Respelling
