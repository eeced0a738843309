import Cpipe.Tools.PythonJson

namespace Cpipe.Tools.V03ToV04
open JsonText PythonJson

def v03Schema : String := "https://schemas.cpipe.dev/pipeline/v0.3.json"

def v04Schema : String := "https://schemas.cpipe.dev/pipeline/v0.4.json"

/-- How the script ends. A document that is no object has no `get`. -/
inductive Exit where
  | done
  | systemExit (message : String)
  | attributeError
  | raised (exception : Exception)
deriving DecidableEq, Repr

variable {N : Type}

/-- `document.get(key) == text`. -/
def textIs (fields : List (String × Document N)) (key text : String) : Bool :=
  match Params.lookup fields key with
  | some (.string value) => value = text
  | _ => false

/-- The assignments to the document. -/
def edit (fields : List (String × Document N)) : List (String × Document N) :=
  let changed := Params.assign fields "version" (.string "0.4")
  if textIs changed "$schema" v03Schema then
    Params.assign changed "$schema" (.string v04Schema)
  else changed

/-- The file after the script. It is written last, when `json.dumps` has returned. -/
def migrate (python : Interpreter) (path : String) (file : Document Token) :
    Document Token × Exit :=
  match loads python file with
  | .error e => (file,.raised e)
  | .ok (.object fields) =>
    if !textIs fields "version" "0.3" then
      (file,.systemExit (path ++ ": expected pipeline version 0.3"))
    else
      match dumps python (.object (edit fields)) with
      | .error e => (file,.raised e)
      | .ok text => (text,.done)
  | .ok _ => (file,.attributeError)

end Cpipe.Tools.V03ToV04
