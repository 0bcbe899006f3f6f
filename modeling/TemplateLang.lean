import TemplateLang.Compile
import TemplateLang.Expr.Eval
import TemplateLang.Value.Text
import TemplateLang.Proofs.Coercion
import TemplateLang.Proofs.Concatenation
import TemplateLang.Proofs.Depth.Balance
import TemplateLang.Proofs.Depth.Calls
import TemplateLang.Proofs.Depth.Compile
import TemplateLang.Proofs.Depth.Height
import TemplateLang.Proofs.Diagnostic.Earliest
import TemplateLang.Proofs.Diagnostic.Pinpoint
import TemplateLang.Proofs.LeadingBlock
import TemplateLang.Proofs.Literals
import TemplateLang.Proofs.Numbers.Text
import TemplateLang.Proofs.Numerals.Blocks
import TemplateLang.Proofs.Numerals.Recognition
import TemplateLang.Proofs.Paths.Documents
import TemplateLang.Proofs.Paths.Words
import TemplateLang.Proofs.Precedence
import TemplateLang.Proofs.Printing
import TemplateLang.Proofs.Progress
import TemplateLang.Proofs.References
import TemplateLang.Proofs.Scan.Canonical
import TemplateLang.Proofs.Scan.Delimiters
import TemplateLang.Proofs.Scan.Endings
import TemplateLang.Proofs.Scopes.Stack
