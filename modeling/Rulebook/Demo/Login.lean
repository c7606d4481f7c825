import Rulebook.History.Listing
import Rulebook.History.Report
import Rulebook.Store.Cycle

/-!
# A login screen

A login screen without a screen: rules decide what it shows, listeners say what a page would show,
and the input of a user is a sequence of updates. `transcript` is all that is said.
-/

namespace Rulebook.Login

def config : Config where
  data := .ofList
    [("page", .null), ("authenticated", .bool false), ("instruction_key", .null),
      ("email_input", .null), ("email_valid", .bool false), ("password_input", .null),
      ("password_valid", .bool false), ("submit_enabled", .null), ("alert", .null)]
  expressions := .ofList
    [("rejected", "page was loading and page is login"),
      ("logout", "authenticated is now false"),
      ("clear_session", "logout or rejected"),
      ("input", "email_input has changed or password_input has changed")]
  rules :=
    ["if page was null and page is login then set instruction_key sign_in",
      "if email_valid is true and password_valid is true then set submit_enabled true",
      "if email_valid is false or password_valid is false then set submit_enabled false",
      "if page is loading then set instruction_key wait",
      "if authenticated is now true then set page home",
      "if page is now home then set instruction_key enjoy",
      "if rejected then set alert try_again",
      "if clear_session then set page login",
      "if clear_session then set password_input null",
      "if clear_session then set email_input null"]

/-- A step of the demonstration. Its memory holds what was said. -/
abbrev Step := Act String

def say (line : String) : Step Unit := do
  Act.remember ((← Act.memory) ++ line ++ "\n")

/-! ### Listeners -/

def showPage (p : Payload) : Step Unit :=
  match (p.get? "page").bind Value.text? with
  | some page => say ("[page] " ++ page.toUpper)
  | none => return

/-- The sentence that an instruction stands for. -/
def instruction? : String → Option String
  | "sign_in" => some "Please sign in."
  | "email_short" => some "EMAIL must be at least FIVE characters long"
  | "password_short" => some "PASSWORD must be at least EIGHT characters long"
  | "submit" => some "You're good."
  | "wait" => some "Please wait."
  | "enjoy" => some "Enjoy!"
  | _ => none

def showInstruction (p : Payload) : Step Unit :=
  match (p.value?.bind Value.text?).bind instruction? with
  | some text => say ("[instruction] " ++ text)
  | none => return

def showSubmit (p : Payload) : Step Unit :=
  say (if p.value?.any Value.truthy then "[buttons] shown" else "[buttons] hidden")

/-- What the user is to do next. -/
def nextInstruction (email? : Option String) (emailValid passwordValid : Bool) : String :=
  if email?.all String.isEmpty then "sign_in"
  else if !emailValid then "email_short"
  else if !passwordValid then "password_short"
  else "submit"

/-- Judges the input by its length in bytes. -/
def validate (p : Payload) : Step Unit := do
  let email? := (p.get? "email_input").bind Value.text?
  let password? := (p.get? "password_input").bind Value.text?
  let emailValid := email?.any fun email => 4 < email.utf8ByteSize
  let passwordValid := password?.any fun password => 7 < password.utf8ByteSize
  let _ ← Act.update
    [("email_valid", .bool emailValid), ("password_valid", .bool passwordValid),
      ("instruction_key", .text (nextInstruction email? emailValid passwordValid))]

/-- Shows a rejection and dismisses it. -/
def showAlert (p : Payload) : Step Unit := do
  if p.value?.bind Value.text? = some "try_again" then
    say "[alert] Sorry, we don't recognize you. Try again."
    let _ ← Act.set "alert" .null

def clearInputs (_ : Payload) : Step Unit := say "[inputs] cleared"

/-! ### The visit -/

def listenAll : Step Unit := do
  let _ ← Act.listen "page" [] showPage
  let _ ← Act.listen "instruction_key" ["instruction_key"] showInstruction
  let _ ← Act.listen "submit_enabled" ["submit_enabled"] showSubmit
  let _ ← Act.listen "input" ["email_input", "password_input"] validate
  let _ ← Act.listen "alert" ["alert"] showAlert
  let _ ← Act.listen "clear_session" [] clearInputs

def enter (field text : String) : Step Unit := do
  let _ ← Act.update [(field, .text text)]

def authenticate (b : Bool) : Step Unit := do
  let _ ← Act.update [("authenticated", .bool b)]

/-- One visit, from the first page to the logout. -/
def visit : Step Unit := do
  enter "page" "login"
  say "\n> typing a short email"
  enter "email_input" "me"
  say "\n> typing full credentials"
  enter "email_input" "me@example.com"
  enter "password_input" "correct horse"
  say "\n> bad login"
  enter "page" "loading"
  enter "page" "login"
  say "\n> good login"
  enter "email_input" "me@example.com"
  enter "password_input" "correct horse"
  enter "page" "loading"
  authenticate true
  say "\n> logout"
  authenticate false

/-- What the history of the visit shows. -/
def review : Step Unit := do
  let s ← Act.state
  say ""
  say s.history.report.text
  say ("=== History (CSV) ===\n" ++ s.history.sheet)

def demonstration : Step Unit := do
  say "=== Keel Login Flow Example ===\n"
  listenAll
  visit
  review

/-- All that is said. The updates of its listeners nest two deep. -/
def transcript : Option String := do
  let s ← (State.build config).toOption
  let app ← App.run 4 demonstration.script { store := { s with }, memory := "" }
  return app.memory

end Rulebook.Login
