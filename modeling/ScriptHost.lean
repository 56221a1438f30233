import ScriptHost.Debugging.Live
import ScriptHost.Debugging.Start
import ScriptHost.LogFilter
import ScriptHost.Prepared.Cache
import ScriptHost.Proofs.Chain.Course
import ScriptHost.Proofs.Debugging.Announcements
import ScriptHost.Proofs.Debugging.ClientFrames
import ScriptHost.Proofs.Debugging.LateFrames
import ScriptHost.Proofs.Debugging.SourceHistory
import ScriptHost.Proofs.Prepared.CompileOnce
import ScriptHost.Proofs.Prepared.Isolation
import ScriptHost.Proofs.Prepared.Transparency
import ScriptHost.Proofs.Protocol.EchoedIds
import ScriptHost.Proofs.Protocol.ObjectFrames
import ScriptHost.Proofs.Session.Outbound
import ScriptHost.Session.Endpoint
import ScriptHost.Session.Listener
import ScriptHost.Proofs.Debugging.Starting
import ScriptHost.Proofs.Prepared.StoreHistory
import ScriptHost.Proofs.Session.Delivery
import ScriptHost.Proofs.Json.Completeness
import ScriptHost.Proofs.Json.ReadBack
import ScriptHost.Proofs.Wire.Filling
import ScriptHost.Proofs.Wire.ReadBack
import ScriptHost.Proofs.Protocol.RoundTrip
import ScriptHost.Proofs.Debugging.Departure
import ScriptHost.Proofs.Debugging.Relaying
import ScriptHost.Proofs.Prepared.Provenance
import ScriptHost.Proofs.Session.LifeCycle
import ScriptHost.Proofs.Protocol.ScriptIds
import ScriptHost.Proofs.Debugging.Spellings
import ScriptHost.Proofs.Protocol.FrameEdits
import ScriptHost.Proofs.Prepared.Effects
import ScriptHost.Proofs.Debugging.DebuggedText
import ScriptHost.Proofs.Debugging.Addresses
import ScriptHost.Proofs.Protocol.Paths
import ScriptHost.Proofs.Debugging.Variables
