import WorkflowFile.Arguments

/-!
# Actions

What a step can invoke instead of a command.

* `Checkout` and `InstallNix` have typed inputs next to free ones.
* `Action` is the closed set of ways to refer to an action.
* `Action.reference` is the text after `uses:` and `Action.arguments` the inputs after
  `with:`, typed inputs in declaration order and free ones after them.
-/

namespace WorkflowFile

/-! ## Checking out a repository -/

/-- How much history to fetch. -/
inductive FetchDepth where
  /-- All of it. -/
  | unlimited
  /-- The given number of commits. -/
  | commits (count : Nat)
  deriving DecidableEq

/-- The text of a depth, where zero stands for all history. -/
def FetchDepth.text : FetchDepth → String
  | .unlimited => "0"
  | .commits count => toString count

/-- The inputs of the action that checks out a repository. -/
structure Checkout where
  repository : Option String := none
  ref : Option String := none
  token : Option String := none
  sshKey : Option String := none
  persistCredentials : Option Bool := none
  path : Option String := none
  clean : Option Bool := none
  fetchDepth : Option FetchDepth := none
  lfs : Option Bool := none
  submodules : Option Bool := none
  /-- Inputs without a field of their own. -/
  extra : Arguments := ∅
  /-- Another version than the pinned one. -/
  version : Option String := none
  deriving DecidableEq

/-- The typed inputs in declaration order. -/
def Checkout.inputs (c : Checkout) : List (String × Option String) :=
  [("repository", c.repository), ("ref", c.ref), ("token", c.token), ("ssh-key", c.sshKey),
    ("persist-credentials", c.persistCredentials.map flagText), ("path", c.path),
    ("clean", c.clean.map flagText), ("fetch-depth", c.fetchDepth.map FetchDepth.text),
    ("lfs", c.lfs.map flagText), ("submodules", c.submodules.map flagText)]

/-! ## Installing Nix -/

/-- The inputs of the action that installs Nix. -/
structure InstallNix where
  installUrl : Option String := none
  /-- Flags for the installer, one a line. -/
  installOptions : Option (List String) := none
  nixPath : Option String := none
  extraNixConfig : Option String := none
  /-- Inputs without a field of their own. -/
  extra : Arguments := ∅
  /-- Another version than the pinned one. -/
  version : Option String := none
  deriving DecidableEq

/-- The typed inputs in declaration order. -/
def InstallNix.inputs (n : InstallNix) : List (String × Option String) :=
  [("install_url", n.installUrl), ("install_options", n.installOptions.map ("\n".intercalate ·)),
    ("nix_path", n.nixPath), ("extra_nix_config", n.extraNixConfig)]

/-! ## All actions -/

/-- An action a step can use. -/
inductive Action where
  /-- An action published in a repository, pinned to a version. -/
  | published (owner name version : String) (inputs : Arguments)
  /-- An action inside the repository itself. -/
  | inRepository (path : String) (inputs : Arguments)
  /-- A container image run as an action. -/
  | container (image tag : String) (inputs : Arguments)
  | checkout (inputs : Checkout)
  | installNix (inputs : InstallNix)
  deriving DecidableEq

namespace Action

/-- The reference after `uses:`. -/
def reference : Action → String
  | published owner name version _ => owner ++ "/" ++ name ++ "@" ++ version
  | inRepository path _ => path
  | container image tag _ => "docker://" ++ image ++ ":" ++ tag
  | checkout c => "actions/checkout@" ++ c.version.getD "v3"
  | installNix n => "cachix/install-nix-action@" ++ n.version.getD "v18"

/-- The typed inputs in declaration order, absent ones included. -/
def typedInputs : Action → List (String × Option String)
  | checkout c => c.inputs
  | installNix n => n.inputs
  | _ => []

/-- The free inputs. -/
def freeInputs : Action → Arguments
  | published _ _ _ inputs => inputs
  | inRepository _ inputs => inputs
  | container _ _ inputs => inputs
  | checkout c => c.extra
  | installNix n => n.extra

/-- The inputs after `with:`. A free input overrides a typed one of its name in place. -/
def arguments (a : Action) : Arguments := .merge a.typedInputs a.freeInputs.entries

end Action

end WorkflowFile
