import ValueScript.Value.Equality
import ValueScript.CommandLine.Tree
import ValueScript.Main
import ValueScript.Proofs.Emission.Yield
import ValueScript.Proofs.Tree
import ValueScript.Proofs.Emission.FirstFault
import ValueScript.Proofs.Emission.Leaves
import ValueScript.Proofs.Assignment
import ValueScript.Proofs.Delimited
import ValueScript.Proofs.Naming
import ValueScript.Proofs.Token
import ValueScript.Proofs.Reading.Line
import ValueScript.Proofs.Reading.Statement
import ValueScript.Proofs.Reading.Script
import ValueScript.Proofs.Reading.Legible
import ValueScript.Proofs.Emission.Root
import ValueScript.Proofs.Emission.Causes
import ValueScript.Proofs.Emission.Limit
import ValueScript.Proofs.Collapse
import ValueScript.Proofs.Emission.Suffix
import ValueScript.Proofs.Json.Form
import ValueScript.Proofs.Json.Grid
import ValueScript.Proofs.Fields
import ValueScript.Proofs.Json.WellFormed
import ValueScript.Proofs.Json.Reading
import ValueScript.Proofs.Json.Keys
import ValueScript.Proofs.Json.Nesting
import ValueScript.Proofs.Json.Events
import ValueScript.Proofs.Machine.Emission
import ValueScript.Proofs.Machine.Script
import ValueScript.Proofs.Assembly
import ValueScript.Proofs.CommandLine.Delivery
import ValueScript.Proofs.FloatToken
import ValueScript.Proofs.Json.Classification
import ValueScript.Proofs.Statement.Mixed
import ValueScript.Proofs.Statement.Block
import ValueScript.Proofs.Statement.OneToken
import ValueScript.Proofs.Reading.Matrix
import ValueScript.Proofs.EffectiveShape
import ValueScript.Proofs.TextRows
import ValueScript.Proofs.FieldOrder
import ValueScript.Proofs.Json.Members
import ValueScript.Proofs.Machine.Writing
import ValueScript.Proofs.Machine.AllOrNothing
import ValueScript.Proofs.Decoding
