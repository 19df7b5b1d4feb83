import Shading.Text.Blank
import Shading.Text.Quoted
import Shading.Text.Lines
import Shading.Binary32.Shortest
import Shading.Language.TokenStream
import Shading.Program.Parse
import Shading.Uniform.Locations
import Shading.Glsl.Writer
import Shading.Json.Parser
import Shading.Json.Printer
import Shading.Config
import Shading.Log
import Shading.Conversions
import Shading.Store.Basic
import Shading.Material.Factory
import Shading.Proofs.Lexer.LongestWords
import Shading.Proofs.Grammar.Accepts
import Shading.Proofs.Selection.Agreement
import Shading.Proofs.Glsl.Lossless
import Shading.Proofs.Material.Sources
import Shading.Proofs.Program.Height
import Shading.Proofs.Grammar.Climbing
import Shading.Proofs.Material.Forgiving
import Shading.Proofs.Program.Notices
import Shading.Proofs.Program.Declared
import Shading.Proofs.Glsl.Globals
import Shading.Proofs.Material.Uniforms
import Shading.Proofs.Program.WellFormed
import Shading.Proofs.Glsl.Requirements
import Shading.Proofs.Material.Tracking
import Shading.Proofs.Selection.Presence
import Shading.Proofs.Program.Lines
import Shading.Proofs.Program.Blame
import Shading.Proofs.Log.Runs
import Shading.Proofs.Defines.Histories
import Shading.Proofs.Json.Serialized
import Shading.Proofs.Program.Usable
import Shading.Proofs.Uniform.Requests
import Shading.Proofs.Lexer.Numbers
import Shading.Proofs.Glsl.Floats
import Shading.Proofs.Walk.Frames
import Shading.Proofs.Language.Moves
import Shading.Proofs.Glsl.Inputs
