namespace SemanticLayer.Command

inductive Page where
  | program
  | describe
  | compile
  | help
  deriving DecidableEq, Repr

inductive Request where
  | describe (database : Option String)
  | compile (file : String) (database : Option String)
  | page (page : Page)
  | version
  deriving DecidableEq, Repr

def Page.text : Page → String
  | .program => "domainql - Query a database through its domain model

Usage: domainql <COMMAND>

Commands:
  describe  Print the domain model ingested from a database as JSON
  compile   Compile a JSON query descriptor to SQL
  help      Print this message or the help of the given subcommand(s)

Options:
  -h, --help     Print help
  -V, --version  Print version
"
  | .describe => "Print the domain model ingested from a database as JSON

Usage: domainql describe [OPTIONS]

Options:
  -d, --database <DATABASE>  Path to the SQLite database
  -h, --help                 Print help
"
  | .compile => "Compile a JSON query descriptor to SQL

Usage: domainql compile [OPTIONS] <FILE>

Arguments:
  <FILE>  Path to the query descriptor

Options:
  -d, --database <DATABASE>  Path to the SQLite database
  -h, --help                 Print help
"
  | .help => "Print this message or the help of the given subcommand(s)

Usage: domainql help [COMMAND]...

Arguments:
  [COMMAND]...  Print help for the subcommand(s)
"

inductive Word where
  | separator
  | long (name : String) (value : Option String)
  | short (letter : Char) (rest : List Char)
  | operand (text : String)
  deriving DecidableEq, Repr

def Word.ofText (text : String) : Word :=
  match text.toList with
  | ['-', '-'] => .separator
  | '-' :: '-' :: rest =>
      let name := String.ofList (rest.takeWhile (· ≠ '='))
      match rest.dropWhile (· ≠ '=') with
      | [] => .long name none
      | _ :: value => .long name (some (String.ofList value))
  | '-' :: letter :: rest => .short letter rest
  | _ => .operand text

structure Given where
  file : Option String
  database : Option String
  deriving DecidableEq, Repr

private def once? (before : Option String) (path : String) : Option (Option String) :=
  if before.isSome || path.isEmpty then none else some (some path)

private def setDatabase? (given : Given) (path : String) : Option Given := do
  return { given with database := ← once? given.database path }

private def setFile? (page : Page) (given : Given) (path : String) : Option Given := do
  if page = .compile then return { given with file := ← once? given.file path } else none

private def finished? (page : Page) (given : Given) : Option Request :=
  if page = .compile then do return .compile (← given.file) given.database
  else some (.describe given.database)

-- A request for help ends the reading, whatever comes after it; none is an error of usage.
private def ofOptions? (page : Page) (given : Given) : List String → Option Request
  | [] => finished? page given
  | text :: rest =>
      match Word.ofText text with
      | .separator => do finished? page (← rest.foldlM (setFile? page) given)
      | .long "help" none => some (.page page)
      | .long "database" (some path) => do ofOptions? page (← setDatabase? given path) rest
      | .long "database" none => separate given rest
      | .short 'h' _ => some (.page page)
      | .short 'd' [] => separate given rest
      | .short 'd' ('=' :: path) => do
          ofOptions? page (← setDatabase? given (String.ofList path)) rest
      | .short 'd' path => do ofOptions? page (← setDatabase? given (String.ofList path)) rest
      | .operand path => do ofOptions? page (← setFile? page given path) rest
      | _ => none
where
  separate (given : Given) : List String → Option Request
    | [] => none
    | text :: rest =>
        match Word.ofText text with
        | .operand path => do ofOptions? page (← setDatabase? given path) rest
        | _ => none

private def helpPage? : List String → Option Page
  | [] => some .program
  | ["describe"] => some .describe
  | ["compile"] => some .compile
  | ["help"] => some .help
  | _ => none

def Request.ofArguments? : List String → Option Request
  | [] => none
  | text :: rest =>
      match Word.ofText text with
      | .operand "describe" => ofOptions? .describe ⟨none, none⟩ rest
      | .operand "compile" => ofOptions? .compile ⟨none, none⟩ rest
      | .operand "help" => .page <$> helpPage? rest
      | .long "help" none => some (.page .program)
      | .long "version" none => some .version
      | .short 'h' _ => some (.page .program)
      | .short 'V' _ => some .version
      | _ => none

end SemanticLayer.Command
