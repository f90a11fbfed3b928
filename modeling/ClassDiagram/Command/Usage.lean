/-!
# Usage and help

The texts that explain the command line.
-/

namespace ClassDiagram.Usage

/-- The name of the program in its messages. -/
def program : String := "puml2model"

/-- The short description of the arguments. -/
def usage : String :=
  String.join
    ["usage: puml2model [-h] [-o OUTDIR] [--format \x7bdump,json,puml\x7d] [--strict]\n",
      "                  [--check-references] [--encoding ENCODING]\n",
      "                  [--reporting \x7b0,1,2\x7d]\n",
      "                  [FILE ...]\n"]

/-- The full description of the command. -/
def help : String :=
  String.join
    [usage,
      "\n",
      "Parse structural PlantUML (classes, relationships, constraints) into a model.\n",
      "\n",
      "positional arguments:\n",
      "  FILE                  Input .puml files. Reads stdin when omitted.\n",
      "\n",
      "options:\n",
      "  -h, --help            show this help message and exit\n",
      "  -o OUTDIR, --outdir OUTDIR\n",
      "                        Output directory. Results go to stdout when omitted.\n",
      "  --format \x7bdump,json,puml\x7d\n",
      "                        Output format: dump (inspection listing, default),\n",
      "                        json, or puml.\n",
      "  --strict              Warn about every line that no grammar rule recognises.\n",
      "  --check-references    Warn about relationship/constraint names with no\n",
      "                        declared entity.\n",
      "  --encoding ENCODING   Encoding of the input files (default: utf-8).\n",
      "  --reporting \x7b0,1,2\x7d   Reporting level: 0 warnings and errors only, 1 basic\n",
      "                        progress (default), 2 detailed.\n"]

/-- The report of a wrong command line. -/
def complaint (problem : String) : String := usage ++ program ++ ": error: " ++ problem ++ "\n"

end ClassDiagram.Usage
