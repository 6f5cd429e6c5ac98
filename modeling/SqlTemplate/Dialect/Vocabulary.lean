import SqlTemplate.Dialect.Basic

/-!
# Words of the built-in dialects

The keywords and type names of ANSI SQL, and what each other dialect adds to
them.
-/

namespace SqlTemplate.Vocabulary

/-- Keywords of ANSI SQL. -/
def standardKeywords : List Word :=
  (["ABSOLUTE", "ACTION", "ADD", "AFTER", "ALL", "ALLOCATE", "ALTER", "AND", "ANY", "ARE", "AS",
    "ASC", "ASSERTION", "AT", "AUTHORIZATION", "BEFORE", "BEGIN", "BETWEEN", "BOTH", "BREADTH",
    "BY", "CALL", "CASCADE", "CASCADED", "CASE", "CAST", "CATALOG", "CHECK", "CLOSE", "COLLATE",
    "COLLATION", "COLUMN", "COMMIT", "CONDITION", "CONNECT", "CONNECTION", "CONSTRAINT",
    "CONSTRAINTS", "CONSTRUCTOR", "CONTINUE", "CORRESPONDING", "COUNT", "CREATE", "CROSS", "CUBE",
    "CURRENT", "CURRENT_DATE", "CURRENT_DEFAULT_TRANSFORM_GROUP",
    "CURRENT_TRANSFORM_GROUP_FOR_TYPE", "CURRENT_PATH", "CURRENT_ROLE", "CURRENT_TIME",
    "CURRENT_TIMESTAMP", "CURRENT_USER", "CURSOR", "CYCLE", "DATA", "DAY", "DEALLOCATE",
    "DECLARE", "DEFAULT", "DEFERRABLE", "DEFERRED", "DELETE", "DEPTH", "DEREF", "DESC",
    "DESCRIBE", "DESCRIPTOR", "DETERMINISTIC", "DIAGNOSTICS", "DISCONNECT", "DISTINCT", "DO",
    "DOMAIN", "DROP", "DYNAMIC", "EACH", "ELSE", "ELSEIF", "END", "EQUALS", "ESCAPE", "EXCEPT",
    "EXCEPTION", "EXEC", "EXECUTE", "EXISTS", "EXIT", "EXTERNAL", "FETCH", "FIRST", "FOR",
    "FOREIGN", "FOUND", "FROM", "FREE", "FULL", "FUNCTION", "GENERAL", "GET", "GLOBAL", "GO",
    "GOTO", "GRANT", "GROUP", "GROUPING", "HANDLE", "HAVING", "HOLD", "HOUR", "IDENTITY", "IF",
    "IMMEDIATE", "IN", "INDICATOR", "INITIALLY", "INNER", "INOUT", "INPUT", "INSERT", "INTERSECT",
    "INTO", "IS", "ISOLATION", "JOIN", "KEY", "LANGUAGE", "LAST", "LATERAL", "LEADING", "LEAVE",
    "LEFT", "LEVEL", "LIKE", "LIMIT", "LOCAL", "LOCALTIME", "LOCALTIMESTAMP", "LOCATOR", "LOOP",
    "MAP", "MATCH", "METHOD", "MINUTE", "MODIFIES", "MODULE", "MONTH", "NAMES", "NATURAL",
    "NESTING", "NEW", "NEXT", "NO", "NONE", "NOT", "OF", "OLD", "ON", "ONLY", "OPEN", "OPTION",
    "OR", "ORDER", "ORDINALITY", "OUT", "OUTER", "OUTPUT", "OVERLAPS", "PAD", "PARAMETER",
    "PARTIAL", "PATH", "PREPARE", "PRESERVE", "PRIMARY", "PRIOR", "PRIVILEGES", "PROCEDURE",
    "PUBLIC", "READ", "READS", "RECURSIVE", "REDO", "REF", "REFERENCES", "REFERENCING",
    "RELATIVE", "RELEASE", "REPEAT", "RESIGNAL", "RESTRICT", "RESULT", "RETURN", "RETURNS",
    "REVOKE", "RIGHT", "ROLE", "ROLLBACK", "ROLLUP", "ROUTINE", "ROW", "ROWS", "SAVEPOINT",
    "SCHEMA", "SCROLL", "SEARCH", "SECOND", "SECTION", "SELECT", "SESSION", "SESSION_USER", "SET",
    "SETS", "SIGNAL", "SIMILAR", "SIZE", "SOME", "SPACE", "SPECIFIC", "SPECIFICTYPE", "SQL",
    "SQLEXCEPTION", "SQLSTATE", "SQLWARNING", "START", "STATE", "STATIC", "SYSTEM_USER", "TABLE",
    "TEMPORARY", "THEN", "TIMEZONE_HOUR", "TIMEZONE_MINUTE", "TO", "TRAILING", "TRANSACTION",
    "TRANSLATION", "TREAT", "TRIGGER", "UNDER", "UNDO", "UNION", "UNIQUE", "UNNEST", "UNTIL",
    "UPDATE", "USAGE", "USER", "USING", "VALUE", "VALUES", "VIEW", "WHEN", "WHENEVER", "WHERE",
    "WHILE", "WITH", "WITHOUT", "WORK", "WRITE", "YEAR", "ZONE", "TRUE", "FALSE", "NULL",
    "UNKNOWN"] : List String).map String.toList

/-- Type names of ANSI SQL. -/
def standardTypes : List Word :=
  (["ARRAY", "BINARY", "BIT", "BOOLEAN", "CHAR", "CHARACTER", "CLOB", "DATE", "DECIMAL", "DOUBLE",
    "FLOAT", "INT", "INTEGER", "INTERVAL", "LARGE", "NATIONAL", "NCHAR", "NCLOB", "NUMERIC",
    "OBJECT", "PRECISION", "REAL", "SMALLINT", "TIME", "TIMESTAMP", "VARCHAR",
    "VARYING"] : List String).map String.toList

/-- Keywords that MySQL adds. -/
def mysqlKeywords : List Word :=
  (["ACCESSIBLE", "ALGORITHM", "ANALYZE", "ASENSITIVE", "AUTO_INCREMENT", "AUTOCOMMIT", "AVG",
    "AVG_ROW_LENGTH", "BINLOG", "BTREE", "CACHE", "CHAIN", "CHANGE", "CHANGED", "CHECKSUM",
    "COALESCE", "COLUMNS", "COMMENT", "COMMITTED", "CONCURRENT", "CONSISTENT", "CONTAINS",
    "CONVERT", "DATABASE", "DATABASES", "DAY_HOUR", "DAY_MICROSECOND", "DAY_MINUTE", "DAY_SECOND",
    "DELAY_KEY_WRITE", "DELAYED", "DELIMITER", "DISABLE", "DISCARD", "DISTINCTROW", "DIV", "DUAL",
    "DUMPFILE", "ENABLE", "ENCLOSED", "ENDS", "ENGINE", "ENGINES", "ERRORS", "ESCAPED", "EVENT",
    "EVENTS", "EVERY", "EXPLAIN", "EXTENDED", "FAST", "FIELD", "FIELDS", "FLUSH", "FORCE",
    "FOUND_ROWS", "FULLTEXT", "GRANTS", "HANDLER", "HASH", "HIGH_PRIORITY", "HOSTS",
    "HOUR_MICROSECOND", "HOUR_MINUTE", "HOUR_SECOND", "IGNORE", "INDEX", "INFILE", "INSENSITIVE",
    "INSERT_METHOD", "INSTALL", "INVOKER", "ITERATE", "KEYS", "KILL", "LINEAR", "LINES", "LIST",
    "LOAD", "LOCK", "LOGS", "LOW_PRIORITY", "MASTER", "MAX", "MAX_ROWS", "MAXVALUE", "MIN",
    "MIN_ROWS", "MINUTE_MICROSECOND", "MINUTE_SECOND", "MOD", "MODE", "MODIFY",
    "NO_WRITE_TO_BINLOG", "OFFSET", "OPTIMIZE", "OPTIONALLY", "OUTFILE", "PARTITION",
    "PARTITIONS", "PASSWORD", "PLUGIN", "PLUGINS", "PROCESSLIST", "PROFILE", "PROFILES", "PURGE",
    "QUERY", "QUICK", "RANGE", "REBUILD", "RECOVER", "REGEXP", "RENAME", "REORGANIZE", "REPAIR",
    "REPEATABLE", "REPLACE", "REQUIRE", "RLIKE", "ROW_FORMAT", "SCHEMAS", "SECOND_MICROSECOND",
    "SEPARATOR", "SERIALIZABLE", "SERVER", "SHARE", "SHOW", "SLAVE", "SNAPSHOT", "SPATIAL",
    "SQL_BIG_RESULT", "SQL_BUFFER_RESULT", "SQL_CACHE", "SQL_CALC_FOUND_ROWS", "SQL_NO_CACHE",
    "SQL_SMALL_RESULT", "SSL", "STARTING", "STRAIGHT_JOIN", "SUM", "TABLES", "TABLESPACE",
    "TERMINATED", "TRIGGERS", "TRUNCATE", "UNCOMMITTED", "UNINSTALL", "UNLOCK", "USE", "UTC_DATE",
    "UTC_TIME", "UTC_TIMESTAMP", "VARIABLES", "VIEWS", "WARNINGS", "XA", "XOR", "YEAR_MONTH",
    "ZEROFILL"] : List String).map String.toList

/-- Type names that MySQL adds. -/
def mysqlTypes : List Word :=
  (["BIGINT", "BLOB", "BOOL", "DATETIME", "ENUM", "FIXED", "GEOMETRY", "JSON", "LINESTRING",
    "LONGBLOB", "LONGTEXT", "MEDIUMBLOB", "MEDIUMINT", "MEDIUMTEXT", "MULTILINESTRING",
    "MULTIPOINT", "MULTIPOLYGON", "POINT", "POLYGON", "SERIAL", "SET", "TINYBLOB", "TINYINT",
    "TINYTEXT", "UNSIGNED", "VARBINARY"] : List String).map String.toList

/-- Keywords that PostgreSQL adds. -/
def postgresqlKeywords : List Word :=
  (["ABORT", "ACCESS", "AGGREGATE", "ALSO", "ALWAYS", "ANALYSE", "ANALYZE", "ASYMMETRIC",
    "BACKWARD", "CACHE", "CALLED", "CHECKPOINT", "CLASS", "CLUSTER", "COMMENT", "COMMENTS",
    "COMMITTED", "CONCURRENTLY", "CONFIGURATION", "CONFLICT", "CONTENT", "CONVERSION", "COPY",
    "COST", "CSV", "DATABASE", "DELIMITER", "DELIMITERS", "DICTIONARY", "DISABLE", "DISCARD",
    "DOCUMENT", "ENABLE", "ENCODING", "ENCRYPTED", "ENUM", "EVENT", "EXCLUDE", "EXCLUDING",
    "EXCLUSIVE", "EXPLAIN", "EXTENSION", "FAMILY", "FILTER", "FOLLOWING", "FORCE", "FORWARD",
    "FREEZE", "FUNCTIONS", "GENERATED", "GRANTED", "GREATEST", "HANDLER", "HEADER", "ILIKE",
    "IMMUTABLE", "IMPLICIT", "IMPORT", "INCLUDE", "INCLUDING", "INCREMENT", "INDEX", "INDEXES",
    "INHERIT", "INHERITS", "INLINE", "INSTEAD", "ISNULL", "LABEL", "LEAKPROOF", "LEAST", "LISTEN",
    "LOAD", "LOCK", "LOCKED", "LOGGED", "MAPPING", "MATERIALIZED", "MAXVALUE", "MINVALUE", "MODE",
    "MOVE", "NOTHING", "NOTIFY", "NOTNULL", "NOWAIT", "NULLS", "OBJECT", "OFF", "OFFSET", "OIDS",
    "OPERATOR", "OPTIONS", "OWNED", "OWNER", "PARALLEL", "PARSER", "PARTITION", "PASSING",
    "PASSWORD", "PLACING", "PLANS", "POLICY", "PRECEDING", "PREPARED", "PROCEDURAL", "PROCEDURES",
    "PROGRAM", "PUBLICATION", "QUOTE", "RANGE", "REASSIGN", "RECHECK", "REFRESH", "REINDEX",
    "RENAME", "REPEATABLE", "REPLACE", "REPLICA", "RESET", "RESTART", "RETURNING", "RULE",
    "SCHEMAS", "SECURITY", "SEQUENCE", "SEQUENCES", "SERIALIZABLE", "SERVER", "SETOF", "SHARE",
    "SHOW", "SIMPLE", "SKIP", "SNAPSHOT", "STABLE", "STANDALONE", "STATEMENT", "STATISTICS",
    "STDIN", "STDOUT", "STORAGE", "STRICT", "STRIP", "SUBSCRIPTION", "SUPPORT", "SYMMETRIC",
    "SYSID", "TABLES", "TABLESPACE", "TEMP", "TEMPLATE", "TEXT", "TIES", "TRANSFORM", "TRUNCATE",
    "TRUSTED", "TYPE", "TYPES", "UNBOUNDED", "UNCOMMITTED", "UNENCRYPTED", "UNLISTEN", "UNLOGGED",
    "VACUUM", "VALID", "VALIDATE", "VALIDATOR", "VARIADIC", "VERBOSE", "VERSION", "VOLATILE",
    "WINDOW", "WRAPPER", "XMLATTRIBUTES", "XMLCONCAT", "XMLELEMENT", "XMLEXISTS", "XMLFOREST",
    "XMLNAMESPACES", "XMLPARSE", "XMLPI", "XMLROOT", "XMLSERIALIZE", "XMLTABLE",
    "YES"] : List String).map String.toList

/-- Type names that PostgreSQL adds. -/
def postgresqlTypes : List Word :=
  (["BIGINT", "INT8", "BIGSERIAL", "SERIAL8", "VARBIT", "BOOL", "BOX", "BYTEA", "CIDR", "CIRCLE",
    "FLOAT8", "INET", "INT4", "JSON", "JSONB", "LINE", "LSEG", "MACADDR", "MACADDR8", "MONEY",
    "PG_LSN", "POINT", "POLYGON", "FLOAT4", "INT2", "SMALLSERIAL", "SERIAL2", "SERIAL", "SERIAL4",
    "TIMETZ", "TIMESTAMPTZ", "TSQUERY", "TSVECTOR", "TXID_SNAPSHOT", "UUID",
    "XML"] : List String).map String.toList

/-- Keywords that BigQuery adds. -/
def bigqueryKeywords : List Word :=
  (["ASSERT_ROWS_MODIFIED", "CONTAINS", "DEFINE", "ENUM", "EXCLUDE", "FOLLOWING", "GROUPS",
    "HASH", "IGNORE", "LOOKUP", "MERGE", "NULLS", "OVER", "PARTITION", "PRECEDING", "PROTO",
    "QUALIFY", "RANGE", "RESPECT", "STRUCT", "TABLESAMPLE", "UNBOUNDED", "WINDOW",
    "WITHIN"] : List String).map String.toList

/-- Type names that BigQuery adds. -/
def bigqueryTypes : List Word :=
  (["BIGNUMERIC", "BOOL", "BYTES", "DATETIME", "FLOAT64", "GEOGRAPHY", "INT64", "JSON", "STRING",
    "STRUCT"] : List String).map String.toList

end SqlTemplate.Vocabulary
