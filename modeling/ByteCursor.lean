import ByteCursor.Cursor.Display
import ByteCursor.Options.Json
import ByteCursor.Scenario
import ByteCursor.Proofs.Numeric.Checked
import ByteCursor.Proofs.Numeric.Classification
import ByteCursor.Proofs.Numeric.FixedPlaces
import ByteCursor.Proofs.Numeric.Stability
import ByteCursor.Proofs.Numeric.Forms
import ByteCursor.Proofs.Numeric.Integers
import ByteCursor.Proofs.Numeric.IntegerForms
import ByteCursor.Proofs.Numeric.Leading
import ByteCursor.Proofs.Cursor.Checked
import ByteCursor.Proofs.Cursor.Items
import ByteCursor.Proofs.Cursor.Contents
import ByteCursor.Proofs.Cursor.NumberScan
import ByteCursor.Proofs.Cursor.Scanned
import ByteCursor.Proofs.Cursor.Tape
import ByteCursor.Proofs.Cursor.Limit
import ByteCursor.Proofs.Cursor.Terminator
import ByteCursor.Proofs.Cursor.Growth
import ByteCursor.Proofs.Cursor.Refusals
import ByteCursor.Proofs.Cursor.Slack
import ByteCursor.Proofs.Scenario
import ByteCursor.Proofs.Options.Text
import ByteCursor.Proofs.Options.Members
