/-!
# Classification flags

A front end classifies a script by nine flags. The script cell keeps them with
one more, which comes from the compile options. `names` lists the flags that
hold, in the order of the fields.
-/

namespace ScriptLinker

/-- What a front end says about a script. -/
structure StencilFlags where
  strict : Bool := false
  bindingsAccessedDynamically : Bool := false
  hasCallSiteObject : Bool := false
  isForEval : Bool := false
  isModule : Bool := false
  isFunction : Bool := false
  hasNonSyntacticScope : Bool := false
  needsFunctionEnvironmentObjects : Bool := false
  hasModuleGoal : Bool := false
  deriving DecidableEq, Inhabited

/-- The flags of a script cell. `noResultValue` says that the value of the last
expression statement is dropped. -/
structure ScriptFlags extends StencilFlags where
  noResultValue : Bool := false
  deriving DecidableEq, Inhabited

namespace StencilFlags

def entries (flags : StencilFlags) : List (String × Bool) :=
  [ ("strict", flags.strict),
    ("bindings_accessed_dynamically", flags.bindingsAccessedDynamically),
    ("has_call_site_obj", flags.hasCallSiteObject),
    ("is_for_eval", flags.isForEval),
    ("is_module", flags.isModule),
    ("is_function", flags.isFunction),
    ("has_non_syntactic_scope", flags.hasNonSyntacticScope),
    ("needs_function_environment_objects", flags.needsFunctionEnvironmentObjects),
    ("has_module_goal", flags.hasModuleGoal) ]

/-- The names of the flags that hold. -/
def names (flags : StencilFlags) : List String :=
  (flags.entries.filter (·.2)).map (·.1)

/-- The flags named in a list; all others are off. -/
def ofNames (named : List String) : StencilFlags where
  strict := named.contains "strict"
  bindingsAccessedDynamically := named.contains "bindings_accessed_dynamically"
  hasCallSiteObject := named.contains "has_call_site_obj"
  isForEval := named.contains "is_for_eval"
  isModule := named.contains "is_module"
  isFunction := named.contains "is_function"
  hasNonSyntacticScope := named.contains "has_non_syntactic_scope"
  needsFunctionEnvironmentObjects := named.contains "needs_function_environment_objects"
  hasModuleGoal := named.contains "has_module_goal"

theorem contains_names (flags : StencilFlags) (name : String) :
    flags.names.contains name = flags.entries.any fun entry => entry.2 && entry.1 == name := by
  rw [Bool.eq_iff_iff]
  simp only [names, List.contains_iff_mem, List.mem_map, List.mem_filter, List.any_eq_true,
    Bool.and_eq_true, beq_iff_eq, and_assoc]

/-- The names of the flags that hold tell which hold. -/
theorem ofNames_names (flags : StencilFlags) : ofNames flags.names = flags := by
  simp only [ofNames, contains_names, entries]
  simp

end StencilFlags

namespace ScriptFlags

/-- The name of the flag that only script cells have. -/
def noResultValueName : String := "no_script_rval"

def names (flags : ScriptFlags) : List String :=
  flags.toStencilFlags.names ++ if flags.noResultValue then [noResultValueName] else []

def ofNames (named : List String) : ScriptFlags where
  toStencilFlags := .ofNames named
  noResultValue := named.contains noResultValueName

end ScriptFlags

end ScriptLinker
