/-!
# Where the settings are kept
-/

namespace Handheld

/-- The variables of the environment. -/
abbrev Environment := String → Option String

/-- The path of something in a directory.  An empty path is the directory
where the program was started. -/
def joinPath (directory name : String) : String :=
  if directory.isEmpty || directory.endsWith "/" then directory ++ name
  else directory ++ "/" ++ name

/-- The path of the settings, where nothing else is asked for.  The first of
three variables that is set tells the directory; it may be empty. -/
def defaultSettingsPath (env : Environment) : String :=
  match env "XDG_CONFIG_HOME", env "HOME", env "APPDATA" with
  | some directory, _, _ => within directory ["dotboy"]
  | none, some directory, _ => within directory [".config", "dotboy"]
  | none, none, some directory => within directory ["dotboy"]
  | none, none, none => fileName
where
  /-- The name of the file. -/
  fileName : String := "config.toml"
  /-- The path of the file below a directory. -/
  within (directory : String) (names : List String) : String :=
    joinPath (names.foldl joinPath directory) fileName

end Handheld
